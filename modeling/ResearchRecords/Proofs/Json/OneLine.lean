import ResearchRecords.Proofs.Json.Written
import ResearchRecords.Proofs.Text.Joined

/-!
Compact texts keep to one line. Controls within strings are escaped, and nothing that is written
around strings is a control, so no text of a value without numbers has a line break, whatever its
strings hold.
-/
namespace ResearchRecords.Json

/-- A character that is no control. -/
def Visible (c : Char) : Prop := 0x20 ≤ c.toNat

instance (c : Char) : Decidable (Visible c) := inferInstanceAs (Decidable (0x20 ≤ c.toNat))

namespace Writer

/-- Given texts are looked through one character after the other, not all characters there are. -/
theorem visible_of_all {s : List Char} (h : s.all (decide <| Visible ·) = true) :
    ∀ c ∈ s, Visible c := by
  simpa using h

theorem visible_hexDigit {n : Nat} (h : n < 16) : Visible (hexDigit n) := by
  have hall : ∀ n < 16, Visible (hexDigit n) := by decide
  exact hall n h

theorem visible_of_mem_escape {c d : Char} (h : d ∈ escape c) : Visible d := by
  by_cases hshort : c ∈ shortEscaped
  · have hall := visible_of_all (s := shortEscaped.flatMap escape) (by decide)
    exact hall d (List.mem_flatMap.mpr ⟨c, hshort, h⟩)
  · by_cases hcontrol : c.toNat < 0x20
    · rw [escape_of_control hshort hcontrol] at h
      simp only [List.mem_cons, List.not_mem_nil, or_false] at h
      rcases h with rfl | rfl | rfl | rfl | rfl | rfl
      · decide
      · decide
      · decide
      · decide
      · exact visible_hexDigit (by omega)
      · exact visible_hexDigit (by omega)
    · rw [escape_of_plain hshort hcontrol] at h
      obtain rfl := List.mem_singleton.mp h
      exact Nat.not_lt.mp hcontrol

theorem visible_of_mem_string {s : String} {c : Char} (h : c ∈ string s) : Visible c := by
  simp only [string, List.cons_append, List.mem_cons, List.mem_append, List.mem_flatMap,
    List.not_mem_nil, or_false] at h
  rcases h with rfl | ⟨d, _, hd⟩ | rfl
  · decide
  · exact visible_of_mem_escape hd
  · decide

theorem visible_of_mem_enclosed {first last : Char} {texts : List (List Char)}
    (hfirst : Visible first) (hlast : Visible last)
    (htexts : ∀ text ∈ texts, ∀ c ∈ text, Visible c) {c : Char}
    (h : c ∈ enclosed first last [','] texts) : Visible c := by
  simp only [enclosed, List.cons_append, List.mem_cons, List.mem_append, List.not_mem_nil,
    or_false] at h
  rcases h with rfl | h | rfl
  · exact hfirst
  · exact Text.forall_mem_intercalate (p := Visible) (by decide) htexts c h
  · exact hlast

/-- The text of a value without numbers has no controls. -/
theorem visible_of_mem_compact {room : Nat} {v : Value} (hplain : v.Plain room) :
    ∀ c ∈ compact v, Visible c := by
  induction hplain with
  | null room => exact visible_of_all (by decide)
  | bool room b => cases b <;> exact visible_of_all (by decide)
  | string room s => exact fun c hc => visible_of_mem_string hc
  | array room items _ ih =>
    intro c hc
    rw [compact, compactItems_eq] at hc
    refine visible_of_mem_enclosed (by decide) (by decide) ?_ hc
    intro text htext
    obtain ⟨item, hitem, rfl⟩ := List.mem_map.mp htext
    exact ih item hitem
  | object room members _ ih =>
    intro c hc
    rw [compact, compactMembers_eq] at hc
    refine visible_of_mem_enclosed (by decide) (by decide) ?_ hc
    intro text htext
    obtain ⟨m, hm, rfl⟩ := List.mem_map.mp htext
    rw [List.forall_mem_append, List.forall_mem_cons]
    exact ⟨fun c hc => visible_of_mem_string hc, by decide, ih m hm⟩

end Writer

theorem Value.Plain.visible_compact {room : Nat} {v : Value} (h : v.Plain room) :
    ∀ c ∈ v.compact.toList, Visible c := by
  rw [Value.compact, String.toList_ofList]
  exact Writer.visible_of_mem_compact h

end ResearchRecords.Json
