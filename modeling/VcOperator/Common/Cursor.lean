import Mathlib.Data.Int.Notation
import Mathlib.Data.List.Basic
import Mathlib.Tactic.SplitIfs
/-!
# Cursors

A cursor is a place in a list that may be built anew under it. It moves and
comes in again at the other end (`wrap`), it goes round (`rotate`), or it is
brought back from behind the end of a list that became shorter (`clamp`). A
cursor that was brought back for one list need not be a place of another.

A `Menu` has two of them: one is a place among the items, and one is a place
among the entries, which are those of the item and those that are there with
every item. So the second one may be left behind when the first one moves.
-/

namespace VcOperator

namespace Cursor

variable {len len' cursor : ℕ} {delta : ℤ}

/-- A move that comes in at the other end. -/
def wrap (len cursor : ℕ) (delta : ℤ) : ℕ :=
  let index : ℤ := cursor + delta
  let index := if index < 0 then (len : ℤ) - 1 else index
  let index := if index ≥ len then 0 else index
  index.toNat

theorem wrap_lt (h : 0 < len) : wrap len cursor delta < len := by
  unfold wrap
  dsimp only
  split_ifs <;> omega

/-- A move around, which may be of any length. -/
def rotate (len cursor : ℕ) (delta : ℤ) : ℕ := ((cursor + delta) % len).toNat

theorem rotate_lt (h : 0 < len) : rotate len cursor delta < len := by
  have hpos := Int.emod_nonneg (cursor + delta) (show (len : ℤ) ≠ 0 by omega)
  have hlt := Int.emod_lt_of_pos (cursor + delta) (show (0 : ℤ) < len by omega)
  unfold rotate
  omega

/-- The cursor, or the last place of the list. -/
def clamp (len cursor : ℕ) : ℕ := if cursor ≥ len then len - 1 else cursor

theorem clamp_lt (h : 0 < len) : clamp len cursor < len := by
  unfold clamp
  split_ifs <;> omega

/-- **Brought back for one list, a place of another**: the cursor was one before, or the
other list is not shorter. -/
theorem clamp_lt_iff (h : 0 < len) : clamp len cursor < len' ↔ cursor < len' ∨ len ≤ len' := by
  unfold clamp
  split_ifs <;> omega

/-! ## Two cursors -/

/-- Items with entries, and a cursor into each. -/
structure Menu where
  /-- How many entries each item has. -/
  items : List ℕ
  item : ℕ
  entry : ℕ
  /-- How many entries there are besides those of the item. -/
  common : ℕ

namespace Menu

/-- How many entries there are. -/
def entries (m : Menu) : ℕ := m.items.getD m.item 0 + m.common

/-- Both cursors point at something, if there is an item. -/
structure Valid (m : Menu) : Prop where
  item : m.items = [] ∨ m.item < m.items.length
  entry : m.entry < m.entries

/-- Another item. -/
def moveItem (m : Menu) (delta : ℤ) : Menu :=
  { m with item := if m.items.isEmpty then 0 else wrap m.items.length m.item delta }

/-- Another entry. -/
def moveEntry (m : Menu) (delta : ℤ) : Menu :=
  { m with entry := if m.entries = 0 then 0 else wrap m.entries m.entry delta }

/-- Other items, for which both cursors are brought back. -/
def replaceItems (m : Menu) (items : List ℕ) : Menu :=
  let m := { m with
    items := items
    item := if items.isEmpty then m.item else clamp items.length m.item }
  { m with entry := if m.entries = 0 then 0 else clamp m.entries m.entry }

/-- What may happen to a menu. -/
inductive Move where
  | stay
  | item (delta : ℤ)
  | entry (delta : ℤ)
  /-- Other items, and only then other entries besides theirs. -/
  | rebuild (items : List ℕ) (common : ℕ)

/-- The menu after a move. -/
def apply (m : Menu) : Move → Menu
  | .stay => m
  | .item delta => m.moveItem delta
  | .entry delta => m.moveEntry delta
  | .rebuild items common => { m.replaceItems items with common := common }

/-- The entry is one of those of the next item and of all items; or it is brought back for
a menu that is not longer than the one that comes. -/
def keeps (m : Menu) : Move → Bool
  | .stay | .entry _ => true
  | .item delta => m.entry < m.items.getD (wrap m.items.length m.item delta) 0 + m.common
  | .rebuild items common =>
    m.entry < items.getD (clamp items.length m.item) 0 + common || m.common ≤ common

variable {m : Menu} {items : List ℕ} {common : ℕ}

theorem Valid.moveEntry (h : m.Valid) (delta : ℤ) : (m.moveEntry delta).Valid where
  item := h.item
  entry := by
    have hpos : 0 < m.entries := Nat.zero_lt_of_lt h.entry
    change (if m.entries = 0 then 0 else wrap m.entries m.entry delta) < m.entries
    rw [if_neg (Nat.ne_of_gt hpos)]
    exact wrap_lt hpos

/-- The item is one of the items after a move. -/
theorem item_moveItem (m : Menu) (delta : ℤ) :
    (m.moveItem delta).items = [] ∨ (m.moveItem delta).item < (m.moveItem delta).items.length := by
  rcases eq_or_ne m.items [] with hnil | hne
  · exact .inl hnil
  · right
    change (if m.items.isEmpty then 0 else wrap m.items.length m.item delta) < m.items.length
    rw [if_neg (by simpa using hne)]
    exact wrap_lt (List.length_pos_iff.2 hne)

theorem entries_moveItem (m : Menu) (delta : ℤ) : (m.moveItem delta).entries =
    m.items.getD (wrap m.items.length m.item delta) 0 + m.common := by
  rw [entries, moveItem]
  cases m.items <;> rfl

theorem valid_moveItem_iff (delta : ℤ) :
    (m.moveItem delta).Valid ↔ m.keeps (.item delta) = true := by
  rw [keeps, decide_eq_true_iff, ← entries_moveItem]
  exact ⟨fun h => h.entry, fun h => ⟨m.item_moveItem delta, h⟩⟩

/-- The item is one of the new items. -/
theorem item_replaceItems (m : Menu) (items : List ℕ) :
    items = [] ∨ (m.replaceItems items).item < items.length := by
  rcases eq_or_ne items [] with hnil | hne
  · exact .inl hnil
  · right
    change (if items.isEmpty then m.item else clamp items.length m.item) < items.length
    rw [if_neg (by simpa using hne)]
    exact clamp_lt (List.length_pos_iff.2 hne)

theorem item_rebuild (m : Menu) (items : List ℕ) (common : ℕ) :
    (m.apply (.rebuild items common)).items = [] ∨
      (m.apply (.rebuild items common)).item < (m.apply (.rebuild items common)).items.length :=
  m.item_replaceItems items

/-- **The first cursor is not left behind** by any move. -/
theorem item_apply (h : m.items = [] ∨ m.item < m.items.length) (move : Move) :
    (m.apply move).items = [] ∨ (m.apply move).item < (m.apply move).items.length := by
  cases move with
  | stay => exact h
  | item delta => exact m.item_moveItem delta
  | entry delta => exact h
  | rebuild items common => exact m.item_rebuild items common

/-- The entries after other items have come, with any number of entries besides theirs. -/
theorem entries_rebuild (m : Menu) (items : List ℕ) (common : ℕ) :
    (m.apply (.rebuild items common)).entries =
      items.getD (clamp items.length m.item) 0 + common := by
  rw [entries, apply, replaceItems]
  cases items <;> rfl

/-- The entries that the second cursor is brought back for. -/
theorem entry_replaceItems (m : Menu) (items : List ℕ) (h : 0 < m.common) :
    (m.replaceItems items).entry = clamp (m.replaceItems items).entries m.entry := by
  have hne : (m.replaceItems items).entries ≠ 0 := by
    have hcommon : (m.replaceItems items).common = m.common := rfl
    rw [entries, hcommon]
    omega
  exact if_neg hne

theorem valid_rebuild_iff (h : 0 < m.common) :
    (m.apply (.rebuild items common)).Valid ↔ m.keeps (.rebuild items common) = true := by
  have hbefore : (m.replaceItems items).entries =
      items.getD (clamp items.length m.item) 0 + m.common := m.entries_rebuild items m.common
  have hafter := m.entries_rebuild items common
  have hclamp : (m.replaceItems items).entry <
      items.getD (clamp items.length m.item) 0 + common ↔
        m.entry < items.getD (clamp items.length m.item) 0 + common ∨
          (m.replaceItems items).entries ≤
            items.getD (clamp items.length m.item) 0 + common := by
    rw [m.entry_replaceItems items h]
    exact clamp_lt_iff (by omega)
  rw [keeps, Bool.or_eq_true, decide_eq_true_iff, decide_eq_true_iff]
  constructor
  · intro hvalid
    have hentry := hclamp.1 (hafter ▸ hvalid.entry)
    omega
  · intro hkeeps
    exact ⟨m.item_replaceItems items, hafter ▸ hclamp.2 (by omega)⟩

/-- **A move leaves two places exactly when it keeps them.** -/
theorem valid_apply_iff (hvalid : m.Valid) (h : 0 < m.common) (move : Move) :
    (m.apply move).Valid ↔ m.keeps move = true := by
  cases move with
  | stay => exact iff_of_true hvalid rfl
  | item delta => exact valid_moveItem_iff delta
  | entry delta => exact iff_of_true (hvalid.moveEntry delta) rfl
  | rebuild items common => exact valid_rebuild_iff h

end Menu

end Cursor

end VcOperator
