import Mathlib
import GasMachine.Fault

/-!
# What success tells

Behaviours and services are computations that may fail. What is proved about them is mostly what
holds of the result if they succeed: `Ensures post computation`. It is proved part by part, along
the way in which the computation is put together.
-/

set_option autoImplicit false

namespace GasMachine

variable {ε α β : Type}

/-- If the computation succeeds, its result is as said. -/
def Ensures (post : α → Prop) (computation : Except ε α) : Prop :=
  ∀ result, computation = .ok result → post result

namespace Ensures

theorem ok {post : α → Prop} {result : α} (h : post result) :
    Ensures post (.ok result : Except ε α) := by
  intro other same
  cases same
  exact h

theorem error {post : α → Prop} (cause : ε) : Ensures post (.error cause : Except ε α) := by
  intro result impossible
  cases impossible

theorem pure {post : α → Prop} {result : α} (h : post result) :
    Ensures post (Pure.pure result : Except ε α) :=
  ok h

theorem throw {post : α → Prop} (cause : ε) :
    Ensures post (MonadExcept.throw cause : Except ε α) :=
  error cause

theorem self (computation : Except ε α) :
    Ensures (fun result => computation = .ok result) computation :=
  fun _ succeeded => succeeded

/-- Nothing is said, so nothing is to be shown. -/
theorem trivial (computation : Except ε α) : Ensures (fun _ => True) computation :=
  fun _ _ => True.intro

theorem mono {pre post : α → Prop} {computation : Except ε α} (h : Ensures pre computation)
    (weaker : ∀ result, pre result → post result) : Ensures post computation :=
  fun result succeeded => weaker result (h result succeeded)

theorem bind {mid : α → Prop} {post : β → Prop} {first : Except ε α} {next : α → Except ε β}
    (h : Ensures mid first) (then_ : ∀ a, mid a → Ensures post (next a)) :
    Ensures post (first >>= next) := by
  intro result succeeded
  cases first with
  | error cause => cases succeeded
  | ok a => exact then_ a (h a rfl) result succeeded

theorem error_bind {post : β → Prop} (cause : ε) (next : α → Except ε β) :
    Ensures post ((.error cause : Except ε α) >>= next) :=
  error cause

/-- A first part of which nothing needs to be known. -/
theorem bind_any {post : β → Prop} {first : Except ε α} {next : α → Except ε β}
    (h : ∀ a, Ensures post (next a)) : Ensures post (first >>= next) :=
  bind (trivial first) fun a _ => h a

theorem map {post : β → Prop} {f : α → β} {computation : Except ε α}
    (h : Ensures (fun a => post (f a)) computation) : Ensures post (computation.map f) := by
  intro result succeeded
  cases computation with
  | error cause => cases succeeded
  | ok a =>
    cases succeeded
    exact h a rfl

theorem map_any {post : β → Prop} {f : α → β} {computation : Except ε α} (h : ∀ a, post (f a)) :
    Ensures post (computation.map f) :=
  map fun a _ => h a

end Ensures

/-- A computation that goes on succeeds if both of its parts do. -/
theorem bind_eq_ok_iff {first : Except ε α} {next : α → Except ε β} {result : β} :
    first >>= next = .ok result ↔ ∃ a, first = .ok a ∧ next a = .ok result := by
  cases first with
  | error fault => exact iff_of_false nofun nofun
  | ok a => exact ⟨fun made => ⟨a, rfl, made⟩, fun ⟨_, same, made⟩ => Except.ok.inj same ▸ made⟩

end GasMachine
