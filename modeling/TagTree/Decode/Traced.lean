import TagTree.Tag

/-!
# Traced results

A computation that may fail and that leaves a trace of the constructs it met.  The trace is kept
on failure too: it then ends where the failure came up.

* `Traced.events_bind`   the events of a sequence are those of its steps, up to the first failure.
-/

namespace TagTree

/-- a tagged array that was recognised -/
structure Event where
  tag : Tag
  kind : Kind
deriving DecidableEq

structure Traced (ε α : Type) where
  events : List Event
  result : Except ε α

namespace Traced
variable {ε α β γ : Type}

/-- one list after the other; the first is not copied when nothing follows -/
def joined : List Event → List Event → List Event
  | [], fs => fs
  | e :: es, [] => e :: es
  | e :: es, f :: fs => e :: es ++ f :: fs

theorem joined_eq (es fs : List Event) : joined es fs = es ++ fs := by
  cases es <;> cases fs <;> simp [joined]

protected def pure (a : α) : Traced ε α := ⟨[], .ok a⟩

protected def bind (x : Traced ε α) (f : α → Traced ε β) : Traced ε β :=
  match x.result with
  | .ok a => let y := f a; ⟨joined x.events y.events, y.result⟩
  | .error e => ⟨x.events, .error e⟩

instance : Monad (Traced ε) where
  pure := Traced.pure
  bind := Traced.bind

def fail (e : ε) : Traced ε α := ⟨[], .error e⟩

def note (e : Event) : Traced ε Unit := ⟨[e], .ok ()⟩

/-- one step for every element, in order, up to the first failure -/
def each (f : α → Traced ε β) : List α → Traced ε (List β)
  | [] => pure []
  | x :: xs => do
    let y ← f x
    let ys ← each f xs
    pure (y :: ys)

def optional (f : α → Traced ε β) : Option α → Traced ε (Option β)
  | none => pure none
  | some x => do
    let y ← f x
    pure (some y)

theorem ext {x y : Traced ε α} (he : x.events = y.events) (hr : x.result = y.result) : x = y := by
  cases x; cases y; cases he; cases hr; rfl

theorem pure_bind (a : α) (f : α → Traced ε β) : (pure a >>= f : Traced ε β) = f a := rfl

theorem bind_ok {x : Traced ε α} {a : α} (h : x.result = .ok a) (f : α → Traced ε β) :
    x >>= f = ⟨x.events ++ (f a).events, (f a).result⟩ := by
  show Traced.bind x f = _
  simp [Traced.bind, h, joined_eq]

theorem bind_error {x : Traced ε α} {e : ε} (h : x.result = .error e) (f : α → Traced ε β) :
    x >>= f = ⟨x.events, .error e⟩ := by
  show Traced.bind x f = _
  simp [Traced.bind, h]

theorem events_bind (x : Traced ε α) (f : α → Traced ε β) :
    (x >>= f).events = x.events ++ match x.result with
      | .ok a => (f a).events
      | .error _ => [] := by
  cases h : x.result with
  | ok a => rw [bind_ok h]
  | error e => rw [bind_error h, List.append_nil]

theorem result_bind (x : Traced ε α) (f : α → Traced ε β) :
    (x >>= f).result = match x.result with
      | .ok a => (f a).result
      | .error e => .error e := by
  cases h : x.result with
  | ok a => rw [bind_ok h]
  | error e => rw [bind_error h]

theorem bind_assoc (x : Traced ε α) (f : α → Traced ε β) (g : β → Traced ε γ) :
    x >>= f >>= g = x >>= fun a => f a >>= g := by
  apply ext
  · simp only [events_bind, result_bind]
    cases x.result with
    | ok a => simp
    | error e => simp
  · simp only [result_bind]
    cases x.result <;> rfl

instance : LawfulMonad (Traced ε) := LawfulMonad.mk' _
  (fun x => by
    apply ext
    · show (x >>= fun a => pure (id a)).events = _
      rw [events_bind]
      cases x.result <;> simp [pure, Traced.pure]
    · show (x >>= fun a => pure (id a)).result = _
      rw [result_bind]
      cases x.result <;> rfl)
  (fun _ _ => rfl)
  bind_assoc

theorem each_congr {f g : α → Traced ε β} {xs : List α} (h : ∀ x ∈ xs, f x = g x) :
    each f xs = each g xs := by
  induction xs with
  | nil => rfl
  | cons x xs ih =>
    rw [each, each, h x List.mem_cons_self, ih fun y hy => h y (List.mem_cons_of_mem _ hy)]

end Traced
end TagTree
