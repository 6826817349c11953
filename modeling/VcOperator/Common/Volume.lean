import Mathlib.Data.Nat.Notation
import Mathlib.Logic.Function.Basic
/-!
# Volumes

Files under names. A name is for at most one file and no file has two names,
but a file that has lost its name is still there for who has opened it. A
file is created under a name, or the one of that name is truncated; it is
written from a place on; and it takes the name of another, which is left
without one.
-/

namespace VcOperator

variable {π β : Type}

/-- Names for the files below `next`, none of which has two. -/
structure Named (names : π → Option ℕ) (next : ℕ) : Prop where
  lt : ∀ {p f}, names p = some f → f < next
  inj : ∀ {p q f}, names p = some f → names q = some f → p = q

namespace Named

variable [DecidableEq π] {names : π → Option ℕ} {next f : ℕ} {p q : π}

/-- A new file gets a name. -/
theorem update_next (h : Named names next) (p : π) :
    Named (Function.update names p (some next)) (next + 1) := by
  have hnew {q : π} : names q ≠ some next := fun hq => Nat.lt_irrefl _ (h.lt hq)
  constructor
  · intro q f hq
    rw [Function.update_apply] at hq
    split at hq
    · cases hq
      exact Nat.lt_succ_self _
    · exact Nat.lt_succ_of_lt (h.lt hq)
  · intro q r f hq hr
    rw [Function.update_apply] at hq hr
    split at hq <;> split at hr
    · rename_i hqp hrp
      rw [hqp, hrp]
    · cases hq
      exact absurd hr hnew
    · cases hr
      exact absurd hq hnew
    · exact h.inj hq hr

/-- A file is moved from one name to another. -/
theorem move (h : Named names next) (hp : names p = some f) (q : π) :
    Named (Function.update (Function.update names p none) q (some f)) next := by
  have hof {r g} (hr : Function.update (Function.update names p none) q (some f) r = some g) :
      (r = q ∧ g = f) ∨ (r ≠ p ∧ names r = some g) := by
    rw [Function.update_apply] at hr
    split at hr
    · rename_i hrq
      cases hr
      exact .inl ⟨hrq, rfl⟩
    · rw [Function.update_apply] at hr
      split at hr
      · cases hr
      · exact .inr ⟨‹_›, hr⟩
  constructor
  · intro r g hr
    rcases hof hr with ⟨-, rfl⟩ | ⟨-, hr⟩
    · exact h.lt hp
    · exact h.lt hr
  · intro r r' g hr hr'
    rcases hof hr with ⟨hrq, hg⟩ | ⟨hrp, hold⟩ <;>
      rcases hof hr' with ⟨hrq', hg'⟩ | ⟨hrp', hold'⟩
    · rw [hrq, hrq']
    · exact absurd (h.inj hold' (hg ▸ hp)) hrp'
    · exact absurd (h.inj hold (hg' ▸ hp)) hrp
    · exact h.inj hold hold'

end Named

/-- A volume, of names `π` and bytes `β`. -/
structure Volume (π β : Type) where
  /-- The file of a name. -/
  names : π → Option ℕ
  contents : ℕ → List β
  /-- No file is numbered from here on. -/
  next : ℕ
  named : Named names next

namespace Volume

/-- A volume without files. -/
def empty : Volume π β where
  names := fun _ => none
  contents := fun _ => []
  next := 0
  named := ⟨nofun, nofun⟩

/-- Contents that are written over from the `k`-th byte on, with `zero` where there was nothing
before it. -/
def overwrite (zero : β) (contents : List β) (k : ℕ) (bytes : List β) : List β :=
  contents.take k ++ List.replicate (k - contents.length) zero ++ bytes ++
    contents.drop (k + bytes.length)

/-- What is written at the end is added. -/
theorem overwrite_length (zero : β) (contents bytes : List β) :
    overwrite zero contents contents.length bytes = contents ++ bytes := by
  simp [overwrite]

/-- `write`, at the `k`-th byte of an open file. -/
def write (zero : β) (v : Volume π β) (f k : ℕ) (bytes : List β) : Volume π β :=
  { v with contents := Function.update v.contents f (overwrite zero (v.contents f) k bytes) }

section Write

variable {zero : β} {v : Volume π β} {f g k : ℕ} {bytes : List β}

@[simp] theorem write_names : (v.write zero f k bytes).names = v.names := rfl

@[simp] theorem write_next : (v.write zero f k bytes).next = v.next := rfl

theorem write_contents_of_ne (h : f ≠ g) :
    (v.write zero g k bytes).contents f = v.contents f := Function.update_of_ne h ..

theorem write_contents_end (h : (v.contents f).length = k) :
    (v.write zero f k bytes).contents f = v.contents f ++ bytes := by
  rw [← overwrite_length zero, h]
  exact Function.update_self ..

end Write

variable [DecidableEq π] {v : Volume π β} {p q : π} {f g : ℕ}

/-- What is under a name. -/
def read (v : Volume π β) (p : π) : Option (List β) := (v.names p).map v.contents

/-- `open`, to write from the beginning: a file that is there is truncated. -/
def create (v : Volume π β) (p : π) : Volume π β × ℕ :=
  match v.names p with
  | some f => ({ v with contents := Function.update v.contents f [] }, f)
  | none =>
    ({ names := Function.update v.names p (some v.next)
       contents := Function.update v.contents v.next []
       next := v.next + 1
       named := v.named.update_next p },
      v.next)

/-- `rename`: `none` where there is no file of the first name. Where both names are one,
nothing happens. -/
def rename (v : Volume π β) (p q : π) : Option (Volume π β) :=
  match h : v.names p with
  | none => none
  | some f =>
    if p = q then some v
    else
      some { v with
        names := Function.update (Function.update v.names p none) q (some f)
        named := v.named.move h q }

/-! ## What the operations leave -/

theorem create_names_self : (v.create p).1.names p = some (v.create p).2 := by
  unfold create
  split
  · assumption
  · exact Function.update_self ..

theorem create_names_of_ne (h : q ≠ p) : (v.create p).1.names q = v.names q := by
  unfold create
  split
  · rfl
  · exact Function.update_of_ne h ..

theorem create_contents_self : (v.create p).1.contents (v.create p).2 = [] := by
  unfold create
  split <;> exact Function.update_self ..

theorem create_contents_of_ne (h : f ≠ (v.create p).2) :
    (v.create p).1.contents f = v.contents f := by
  unfold create at h ⊢
  split at h <;> exact Function.update_of_ne h ..

/-- A file that is created was the one of that name, or there was no such file. -/
theorem create_snd : v.names p = some (v.create p).2 ∨ (v.create p).2 = v.next := by
  unfold create
  split
  · exact .inl ‹_›
  · exact .inr rfl

theorem next_le_create : v.next ≤ (v.create p).1.next := by
  unfold create
  split
  · exact Nat.le_refl _
  · exact Nat.le_succ _

/-- **A rename to another name**: the file is under the new name, under which there may have
been another, and no longer under the old one. -/
theorem rename_of_ne {v' : Volume π β} (hpq : p ≠ q) (h : v.rename p q = some v') :
    ∃ f, v.names p = some f ∧
      v'.names = Function.update (Function.update v.names p none) q (some f) ∧
      v'.contents = v.contents ∧ v'.next = v.next := by
  unfold rename at h
  split at h
  · cases h
  · rename_i f hf
    rw [if_neg hpq, Option.some.injEq] at h
    subst h
    exact ⟨f, hf, rfl, rfl, rfl⟩

theorem isSome_rename_iff : (v.rename p q).isSome ↔ (v.names p).isSome := by
  unfold rename
  split
  · rename_i h
    simp [h]
  · rename_i h
    split <;> simp [h]

end Volume

end VcOperator
