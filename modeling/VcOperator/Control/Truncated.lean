import VcOperator.Control.Protocol
import VcOperator.Json.Truncated
/-!
# Lines that are cut off

What arrives of a line is its beginning. Before all of the text is there,
nothing is decoded from it; from then on, what was written is.
-/

namespace VcOperator

namespace Control

variable {floats : Json.Floats}

/-- **A line that was cut off is not decoded**, wherever its object is cut. -/
theorem fromSlice_eq_none_of_cut {α : Type} (read : Value → Option α)
    {ms : List (String × Value)} (hv : Json.plain (.object ms) = true) {arrived rest : Bytes}
    (h : arrived ++ rest = toVec floats (.object ms)) (hrest : rest ≠ []) :
    fromSlice floats read arrived = none := by
  obtain ⟨mid, hmid⟩ := Json.exists_print_object floats .compact 0 ms
  cases htext : String.fromUTF8? ⟨arrived.toArray⟩ with
  | none => rw [fromSlice, htext]; rfl
  | some text =>
    -- what arrived is a text, and so the beginning of the one that was written
    have harrived : arrived = text.toUTF8.data.toList := by
      rw [String.fromUTF8?] at htext
      split_ifs at htext with hvalid
      cases htext
      rfl
    have hbytes : text.toList.flatMap String.utf8EncodeChar ++ rest =
        ('\x7b' :: mid ++ ['\x7d']).flatMap String.utf8EncodeChar := by
      rw [harrived, toVec, Json.toText, Utf8.toList_toUTF8, Utf8.toList_toUTF8,
        String.toList_ofList, hmid] at h
      exact h
    obtain ⟨chars, hchars⟩ := Utf8.prefix_of_flatMap_prefix ⟨rest, hbytes⟩
    have hne : chars ≠ [] := by
      rintro rfl
      rw [← hchars, List.append_nil] at hbytes
      exact hrest (List.append_right_eq_self.1 hbytes)
    have hend : '\x7d' ∈ chars := by
      have hlast := congrArg List.getLast? hchars
      rw [List.getLast?_append_of_ne_nil _ hne, List.getLast?_append_of_ne_nil _ (by simp)] at hlast
      exact List.mem_of_getLast? hlast
    have hskip : Json.skip chars ≠ [] := fun hnil => by
      have hblank := List.dropWhile_eq_nil_iff.1 hnil _ hend
      revert hblank
      decide
    have hwhole : Json.fromStr floats (String.ofList (text.toList ++ chars)) =
        some (.object ms) := by
      have hprint := Json.fromStr_print floats .compact hv [] fun c hc => by cases hc
      rwa [List.append_nil, hmid, ← hchars] at hprint
    have hcut : Json.fromStr floats text = none := by
      cases hlist : text.toList with
      | nil =>
        rw [← String.ofList_toList (s := text), hlist]
        rfl
      | cons c tail =>
        rw [hlist, List.cons_append, List.cons_append, List.cons.injEq] at hchars
        rw [hlist, hchars.1] at hwhole
        rw [← String.ofList_toList (s := text), hlist, hchars.1]
        exact Json.fromStr_eq_none_of_cut hwhole hskip
    rw [fromSlice, htext]
    simp only [Option.bind_eq_bind, Option.bind_some, hcut, Option.bind_none]

end Control

end VcOperator
