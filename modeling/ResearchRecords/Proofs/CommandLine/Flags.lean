import ResearchRecords.CommandLine.Reading
import ResearchRecords.Proofs.Results

/-!
Which flags a reading holds. A flag is given, or waits for its value, only if an argument spells it,
and an argument behind two dashes spells none.
-/
namespace ResearchRecords.CommandLine

open Results

/-- Whether an argument has the form of a flag. -/
def spells (arg : String) (flag : Flag) : Bool :=
  match Form.of arg with
  | .long name _ => flag.long == name
  | .short chars => chars.any fun c => flag.short? == some c
  | _ => false

/-- The arguments before two dashes, among which flags can be. -/
def flagged (args : List String) : List String := args.takeWhile fun arg => arg != "--"

/-- All flags that the arguments spell have a property. -/
def SpellOnly (P : Flag → Prop) (args : List String) : Prop :=
  ∀ arg ∈ flagged args, ∀ flag, spells arg flag = true → P flag

theorem ne_dashes {arg : String} (h : Form.of arg ≠ .dashes) : arg ≠ "--" := by
  rintro rfl
  exact h rfl

theorem spellOnly_cons {P : Flag → Prop} {arg : String} {rest : List String} (h : arg ≠ "--") :
    SpellOnly P (arg :: rest) ↔ (∀ flag, spells arg flag = true → P flag) ∧ SpellOnly P rest := by
  rw [SpellOnly, flagged, List.takeWhile_cons_of_pos (by simpa using h)]
  exact List.forall_mem_cons

theorem spells_of_long {arg name : String} {value : Option String}
    (h : Form.of arg = .long name value) {flag : Flag} (hflag : flag.long = name) :
    spells arg flag = true := by
  rw [spells, h]
  exact beq_iff_eq.mpr hflag

theorem spells_of_short {arg : String} {chars : List Char} (h : Form.of arg = .short chars)
    {flag : Flag} {c : Char} (hmem : c ∈ chars) (hflag : flag.short? = some c) :
    spells arg flag = true := by
  rw [spells, h]
  exact List.any_eq_true.mpr ⟨c, hmem, beq_iff_eq.mpr hflag⟩

namespace Scope

theorem long_of_long? {scope : Scope} {name : String} {flag : Flag}
    (h : scope.long? name = some flag) : flag.long = name := by
  simpa using List.find?_some h

theorem short_of_short? {scope : Scope} {c : Char} {flag : Flag}
    (h : scope.short? c = some flag) : flag.short? = some c := by
  simpa using List.find?_some h

end Scope

namespace Reading

variable {scope : Scope} {r next : Reading} {flag : Flag}

theorem eq_of_settle {value : Option String} (h : r.settle flag value = .ok next) :
    ∃ values, next = { r with given := r.given ++ [(flag, values)] } := by
  unfold settle at h
  split at h
  · cases h
  split at h
  · cases h
  split at h
  · split at h
    · cases h
    · exact ⟨_, (Except.ok.inj h).symm⟩
  · cases value with
    | none => cases h
    | some value =>
      dsimp only at h
      split at h
      · cases h
      split at h
      · cases h
      · exact ⟨_, (Except.ok.inj h).symm⟩

theorem takeLong_eq_ok {name : String} {value : Option String}
    (h : r.takeLong scope name value = .ok next) :
    ∃ flag resolved, scope.long? name = some flag ∧ r.resolve = .ok resolved ∧
      ((∃ value, resolved.settle flag value = .ok next) ∨
        next = { resolved with pending := some (flag, none) }) := by
  unfold takeLong at h
  split at h
  · cases h
  next flag hflag =>
    refine ⟨flag, ?_⟩
    split at h
    · cases h
    · obtain ⟨resolved, hresolved, h⟩ := (bind_eq_ok ..).mp h
      exact ⟨resolved, hflag, hresolved, .inl ⟨_, h⟩⟩
    · obtain ⟨resolved, hresolved, h⟩ := (bind_eq_ok ..).mp h
      exact ⟨resolved, hflag, hresolved, .inl ⟨_, h⟩⟩
    · obtain ⟨resolved, hresolved, h⟩ := (bind_eq_ok ..).mp h
      exact ⟨resolved, hflag, hresolved, .inr ((pure_eq_ok ..).mp h).symm⟩

theorem takeOperand_eq_ok {arg : String} (h : r.takeOperand scope arg = .ok next) :
    ∃ resolved, r.resolve = .ok resolved ∧
      next = { resolved with operands := resolved.operands ++ [arg] } := by
  unfold takeOperand at h
  split at h
  · obtain ⟨resolved, hresolved, h⟩ := (bind_eq_ok ..).mp h
    exact ⟨resolved, hresolved, ((pure_eq_ok ..).mp h).symm⟩
  · split at h <;> cases h

theorem operandsOnly_of_resolve (h : r.resolve = .ok next) :
    next.operandsOnly = r.operandsOnly := by
  unfold resolve at h
  split at h
  · rw [Except.ok.inj h]
  · obtain ⟨_, rfl⟩ := eq_of_settle h
    rfl

theorem operandsOnly_of_takeOperand {arg : String} (h : r.takeOperand scope arg = .ok next) :
    next.operandsOnly = r.operandsOnly := by
  obtain ⟨resolved, hresolved, rfl⟩ := takeOperand_eq_ok h
  change resolved.operandsOnly = r.operandsOnly
  exact operandsOnly_of_resolve hresolved

/-- All flags that are given, and the one that waits, have a property. -/
structure Within (P : Flag → Prop) (r : Reading) : Prop where
  given : ∀ p ∈ r.given, P p.1
  pending : ∀ p ∈ r.pending, P p.1

variable {P : Flag → Prop}

theorem within_start : start.Within P where
  given := by simp [start]
  pending := by simp [start]

namespace Within

theorem settle (hr : r.Within P) (hflag : P flag) {value : Option String}
    (h : r.settle flag value = .ok next) : next.Within P := by
  obtain ⟨values, rfl⟩ := eq_of_settle h
  refine ⟨?_, hr.pending⟩
  intro p hp
  rcases List.mem_append.mp hp with hp | hp
  · exact hr.given p hp
  · obtain rfl := List.mem_singleton.mp hp
    exact hflag

theorem resolve (hr : r.Within P) (h : r.resolve = .ok next) : next.Within P := by
  unfold Reading.resolve at h
  split at h
  · exact Except.ok.inj h ▸ hr
  next flag value hpending =>
    have hnone : ({ r with pending := none } : Reading).Within P := ⟨hr.given, by simp⟩
    exact hnone.settle (hr.pending _ hpending) h

theorem wait (hr : r.Within P) (hflag : P flag) :
    ({ r with pending := some (flag, none) } : Reading).Within P := by
  refine ⟨hr.given, ?_⟩
  rintro p ⟨⟩
  exact hflag

theorem fill (hr : r.Within P) (value : String) : (r.fill value).Within P := by
  refine ⟨hr.given, ?_⟩
  intro p hp
  obtain ⟨before, hbefore, rfl⟩ := Option.map_eq_some_iff.mp hp
  exact hr.pending before hbefore

theorem takeLong (hr : r.Within P) {name : String} (hname : ∀ flag, flag.long = name → P flag)
    {value : Option String} (h : r.takeLong scope name value = .ok next) : next.Within P := by
  obtain ⟨flag, resolved, hflag, hresolved, h⟩ := takeLong_eq_ok h
  have hP := hname flag (Scope.long_of_long? hflag)
  rcases h with ⟨value, h⟩ | rfl
  · exact (hr.resolve hresolved).settle hP h
  · exact (hr.resolve hresolved).wait hP

theorem takeShort {chars : List Char} (hr : r.Within P)
    (hchars : ∀ c ∈ chars, ∀ flag : Flag, flag.short? = some c → P flag)
    (h : r.takeShort scope chars = .ok next) : next.Within P := by
  induction chars generalizing r with
  | nil => exact Except.ok.inj h ▸ hr
  | cons c rest ih =>
    obtain ⟨hc, hrest⟩ := List.forall_mem_cons.mp hchars
    unfold Reading.takeShort at h
    split at h
    · cases h
    next flag hflag =>
      have hP := hc flag (Scope.short_of_short? hflag)
      obtain ⟨resolved, hresolved, h⟩ := (bind_eq_ok ..).mp h
      have hwithin := hr.resolve hresolved
      split at h
      · obtain ⟨settled, hsettled, h⟩ := (bind_eq_ok ..).mp h
        exact ih (hwithin.settle hP hsettled) hrest h
      · split at h
        · exact (pure_eq_ok ..).mp h ▸ hwithin.wait hP
        · exact hwithin.settle hP h

theorem takeOperand (hr : r.Within P) {arg : String} (h : r.takeOperand scope arg = .ok next) :
    next.Within P := by
  obtain ⟨resolved, hresolved, rfl⟩ := takeOperand_eq_ok h
  exact ⟨(hr.resolve hresolved).given, (hr.resolve hresolved).pending⟩

/-- Reading on finds only flags that are spelled, and so does reading on behind a command. -/
theorem read {args : List String} {command : Option (String × List String)} (hr : r.Within P)
    (hargs : r.operandsOnly = true ∨ SpellOnly P args)
    (h : r.read scope args = .ok (next, command)) :
    next.Within P ∧ ∀ name rest, command = some (name, rest) → SpellOnly P rest := by
  induction args generalizing r with
  | nil =>
    obtain ⟨rfl, rfl⟩ := Prod.mk.inj (Except.ok.inj h)
    exact ⟨hr, by simp⟩
  | cons arg rest ih =>
    unfold Reading.read at h
    split at h
    next honly =>
      obtain ⟨taken, htaken, h⟩ := (bind_eq_ok ..).mp h
      exact ih (hr.takeOperand htaken) (.inl ((operandsOnly_of_takeOperand htaken).trans honly)) h
    next honly =>
      have hargs := hargs.resolve_left honly
      split at h
      next hcommand =>
        obtain ⟨rfl, rfl⟩ := Prod.mk.inj (Except.ok.inj h)
        refine ⟨hr, ?_⟩
        rintro name rest ⟨⟩
        have hdashes : arg ≠ "--" := by
          rintro rfl
          exact absurd hcommand.2.2 (by decide)
        exact ((spellOnly_cons hdashes).mp hargs).2
      next =>
        split at h
        next =>
          have hbehind : ({ r with operandsOnly := true } : Reading).Within P :=
            ⟨hr.given, hr.pending⟩
          exact ih hbehind (.inl rfl) h
        next name value hform =>
          obtain ⟨harg, hrest⟩ := (spellOnly_cons (ne_dashes (by simp [hform]))).mp hargs
          obtain ⟨taken, htaken, h⟩ := (bind_eq_ok ..).mp h
          have hname : ∀ flag, flag.long = name → P flag := fun flag hflag =>
            harg flag (spells_of_long hform hflag)
          exact ih (hr.takeLong hname htaken) (.inr hrest) h
        next chars hform =>
          obtain ⟨harg, hrest⟩ := (spellOnly_cons (ne_dashes (by simp [hform]))).mp hargs
          obtain ⟨taken, htaken, h⟩ := (bind_eq_ok ..).mp h
          have hchars : ∀ c ∈ chars, ∀ flag : Flag, flag.short? = some c → P flag :=
            fun c hc flag hflag => harg flag (spells_of_short hform hc hflag)
          exact ih (hr.takeShort hchars htaken) (.inr hrest) h
        next hform =>
          obtain ⟨_, hrest⟩ := (spellOnly_cons (ne_dashes (by simp [hform]))).mp hargs
          split at h
          · exact ih (hr.fill arg) (.inr hrest) h
          · obtain ⟨taken, htaken, h⟩ := (bind_eq_ok ..).mp h
            exact ih (hr.takeOperand htaken) (.inr hrest) h

theorem values_eq_nil (hr : r.Within P) (hflag : ¬ P flag) : r.values flag = [] := by
  have hgiven : r.given.filter (·.1 == flag) = [] := by
    refine List.filter_eq_nil_iff.mpr ?_
    intro p hp heq
    exact hflag (beq_iff_eq.mp heq ▸ hr.given p hp)
  rw [values, hgiven]
  rfl

theorem value?_eq_none (hr : r.Within P) (hflag : ¬ P flag) : r.value? flag = none := by
  rw [value?, hr.values_eq_nil hflag]
  rfl

theorem has_eq_false (hr : r.Within P) (hflag : ¬ P flag) : r.has flag = false := by
  refine List.any_eq_false.mpr ?_
  intro p hp heq
  exact hflag (beq_iff_eq.mp heq ▸ hr.given p hp)

end Within

end Reading

end ResearchRecords.CommandLine
