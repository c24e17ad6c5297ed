/-!
# Text as bytes

Positions in a text count bytes of its UTF-8 form.

* `ofBytes?_bytes`   the bytes of a text give the text back.
-/

namespace TagTree.Text

def bytes (s : String) : List UInt8 := s.toByteArray.data.toList

/-- the text with these bytes, if they are well-formed UTF-8 -/
def ofBytes? (bs : List UInt8) : Option String := String.fromUTF8? bs.toByteArray

theorem toByteArray_bytes (s : String) : (bytes s).toByteArray = s.toByteArray := by
  apply ByteArray.ext
  rw [List.data_toByteArray, bytes, Array.toArray_toList]

theorem ofBytes?_bytes (s : String) : ofBytes? (bytes s) = some s := by
  unfold ofBytes? String.fromUTF8?
  rw [dif_pos (by rw [toByteArray_bytes]; exact s.isValidUTF8)]
  congr 1
  exact String.toByteArray_inj.1 (toByteArray_bytes s)

/-- the bytes of one character -/
def charBytes (c : Char) : List UInt8 := String.utf8EncodeChar c

end TagTree.Text
