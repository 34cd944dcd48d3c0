import Mathlib.Data.List.Induction
import MethodSynthesis.Proofs.Commands

/-!
# Staleness

Effective parameters are stale from the first change of the structure that takes effect up to the
next synthesis that succeeds. As long as they are not, the table is the one that synthesis would
give, and no call misses its item or its facet.
-/

namespace MethodSynthesis

/-! ## Synthesis sees the structure alone -/

theorem MethodTable.bindItem_eq_of_shape_eq {a b : Item} (h : a.shape = b.shape)
    (options : SynthesisOptions) (table : MethodTable) :
    bindItem options table a = bindItem options table b := by
  obtain ⟨hdefinition, hcapabilities⟩ := Prod.mk.inj h
  simp only [bindItem, Item.methodKinds, Item.name, hdefinition, hcapabilities]

theorem MethodTable.foldlM_bindItem_eq_of_shape_eq {items others : List Item}
    (h : items.map Item.shape = others.map Item.shape) (options : SynthesisOptions)
    (table : MethodTable) :
    items.foldlM (bindItem options) table = others.foldlM (bindItem options) table := by
  induction items generalizing others table with
  | nil => rw [List.map_eq_nil_iff.mp h.symm]
  | cons item rest ih =>
      cases others with
      | nil => cases h
      | cons other others =>
          obtain ⟨hhead, htail⟩ := List.cons.inj h
          rw [List.foldlM_cons, List.foldlM_cons, bindItem_eq_of_shape_eq hhead]
          congr 1
          funext table
          exact ih htail table

theorem Parameters.synthesize_eq_of_shape_eq {p q : Parameters} (h : q.shape = p.shape)
    (options : SynthesisOptions) : q.synthesize options = p.synthesize options :=
  MethodTable.foldlM_bindItem_eq_of_shape_eq h options Table.empty

/-! ## Errors of a lost target -/

/-- The error says that the item of a binding or its facet is not there. -/
def SynthesisError.TargetLost : SynthesisError → Prop
  | .itemNotFound _ | .missingCapability _ _ => True
  | _ => False

theorem Request.Refuses.not_targetLost {kind : MethodKind} {method : String}
    {arguments : List Value} {e : SynthesisError} (h : Refuses kind method arguments e) :
    ¬ e.TargetLost := by
  cases h <;> exact id

theorem Binding.Ends.not_targetLost {binding : Binding} {method : String} {p q : Parameters}
    {arguments : List Value} {e : SynthesisError} {item : Item}
    (h : binding.Ends method p arguments (.error e, q)) (hfind : p.find? binding.item = some item)
    (hexposes : item.Exposes binding.kind) : ¬ e.TargetLost := by
  cases h with
  | missing hnone =>
      rw [hfind] at hnone
      cases hnone
  | unfit harguments => exact (Request.refuses_of_ofArguments harguments).not_targetLost
  | unread hsame hmakes hread =>
      rename_i other r fault
      rw [hfind, Option.some.injEq] at hsame
      subst hsame
      cases fault with
      | refused error => exact id
      | absent capability =>
          rw [Item.Exposes, ← hmakes.capability_eq] at hexposes
          exact absurd hread (Item.read_ne_absent hexposes)
  | unwritten hsame hmakes hwrite =>
      rename_i other w fault
      rw [hfind, Option.some.injEq] at hsame
      subst hsame
      cases fault with
      | refused error => exact id
      | absent capability =>
          rw [Item.Exposes, ← hmakes.capability_eq] at hexposes
          exact absurd hwrite (Item.write_ne_absent hexposes)

namespace EffectiveParameters

variable {api : EffectiveParameters} {p : Parameters} {options : SynthesisOptions}

/-! ## What every command keeps -/

theorem isStale_iff : api.isStale = true ↔ api.parameters.version ≠ api.synthesizedVersion := by
  simp [isStale]

theorem isStale_eq_false_iff :
    api.isStale = false ↔ api.parameters.version = api.synthesizedVersion := by
  simp [isStale]

/-- Names are distinct, and the table is that of the container unless this has a later version. -/
structure Coherent (api : EffectiveParameters) : Prop where
  distinct : api.parameters.NamesDistinct
  synthesizedVersion_le : api.synthesizedVersion ≤ api.parameters.version
  inSync : api.isStale = false → api.parameters.synthesize api.options = .ok api.methods

theorem ofParameters_eq_ok_iff :
    ofParameters p options = .ok api ↔
      ∃ methods, p.synthesize options = .ok methods ∧
        api = ⟨p, options, methods, p.version⟩ := by
  simp only [ofParameters, Outcomes.bind_eq_ok_iff, Outcomes.pure_eq_ok_iff]

theorem coherent_ofParameters (hdistinct : p.NamesDistinct)
    (h : ofParameters p options = .ok api) : api.Coherent := by
  obtain ⟨methods, hmethods, rfl⟩ := ofParameters_eq_ok_iff.mp h
  exact ⟨hdistinct, Nat.le_refl _, fun _ => hmethods⟩

theorem coherent_of_shape_eq {q : Parameters} (h : api.Coherent)
    (hshape : q.shape = api.parameters.shape) (hversion : q.version = api.parameters.version) :
    Coherent { api with parameters := q } where
  distinct := Parameters.namesDistinct_of_shape_eq h.distinct hshape
  synthesizedVersion_le := hversion ▸ h.synthesizedVersion_le
  inSync hfresh := by
    rw [Parameters.synthesize_eq_of_shape_eq hshape]
    refine h.inSync ?_
    rw [isStale_eq_false_iff] at hfresh ⊢
    exact hversion ▸ hfresh

theorem coherent_perform (h : api.Coherent) (command : Command) :
    (api.perform command).2.Coherent := by
  have hends := api.ends_perform command
  generalize api.perform command = outcome at hends ⊢
  cases hends with
  | changed c =>
      by_cases heffect : c.TakesEffect api.parameters
      · have hversion := Parameters.version_change heffect
        have hle := h.synthesizedVersion_le
        refine ⟨Parameters.namesDistinct_change h.distinct c, ?_, fun hfresh => ?_⟩
        · dsimp only
          omega
        · rw [isStale_eq_false_iff] at hfresh
          dsimp only at hfresh
          omega
      · obtain ⟨hshape, hversion⟩ := Parameters.change_of_not_takesEffect heffect
        exact coherent_of_shape_eq h hshape hversion
  | renewed hsynthesize => exact ⟨h.distinct, Nat.le_refl _, fun _ => hsynthesize⟩
  | notRenewed hsynthesize => exact h
  | called hcall hends =>
      obtain ⟨q, hq, hshape, hversion⟩ := hends.shape_version
      rw [hq]
      exact coherent_of_shape_eq h hshape hversion

theorem coherent_performAll (h : api.Coherent) (commands : List Command) :
    (api.performAll commands).Coherent := by
  induction commands using List.reverseRec with
  | nil => exact h
  | append_singleton before command ih =>
      rw [performAll_append_singleton]
      exact coherent_perform ih command

/-! ## When parameters are stale -/

theorem resynthesize_of_ok {methods : MethodTable}
    (h : api.parameters.synthesize api.options = .ok methods) :
    api.resynthesize =
      (.ok (), { api with methods, synthesizedVersion := api.parameters.version }) := by
  simp only [resynthesize, h]

theorem resynthesize_of_error {e : SynthesisError}
    (h : api.parameters.synthesize api.options = .error e) :
    api.resynthesize = (.error e, api) := by
  simp only [resynthesize, h]

/-- A command leaves stale parameters behind by a change that takes effect, or where they were stale
and it does not renew the table. -/
theorem isStale_perform_iff (h : api.Coherent) (command : Command) :
    (api.perform command).2.isStale = true ↔
      (∃ c, command = .change c ∧ c.TakesEffect api.parameters) ∨
        (api.isStale = true ∧
          (command = .resynthesize → ∃ e, api.resynthesize.1 = .error e)) := by
  have hends := api.ends_perform command
  generalize api.perform command = outcome at hends ⊢
  cases hends with
  | changed c =>
      rw [isStale_iff, isStale_iff]
      simp only [Command.change.injEq, exists_eq_left', reduceCtorEq, false_implies, and_true]
      by_cases heffect : c.TakesEffect api.parameters
      · have hversion := Parameters.version_change heffect
        have hle := h.synthesizedVersion_le
        simp only [heffect, true_or, iff_true]
        omega
      · have hversion := (Parameters.change_of_not_takesEffect heffect).2
        simp only [heffect, false_or, hversion]
  | renewed hsynthesize => simp [resynthesize_of_ok hsynthesize, isStale]
  | notRenewed hsynthesize => simp [resynthesize_of_error hsynthesize]
  | called hcall hends =>
      obtain ⟨q, hq, -, hversion⟩ := hends.shape_version
      have hchange : ∀ c, command ≠ .change c := by
        intro c hcommand
        rw [hcommand] at hcall
        exact hcall
      have hresynthesize : command ≠ .resynthesize := by
        intro hcommand
        rw [hcommand] at hcall
        exact hcall
      simp [hq, isStale_iff, hversion, hchange, hresynthesize]

/-- A change has taken effect in the run, and no synthesis behind it has succeeded. -/
def ChangedSince (api : EffectiveParameters) (commands : List Command) : Prop :=
  ∃ before c after, commands = before ++ .change c :: after ∧
    c.TakesEffect (api.performAll before).parameters ∧
    ∀ middle rest, after = middle ++ .resynthesize :: rest →
      ∃ e, (api.performAll (before ++ .change c :: middle)).resynthesize.1 = .error e

theorem append_singleton_eq_iff {α : Type} {xs before after : List α} {last x : α} :
    xs ++ [last] = before ++ x :: after ↔
      (xs = before ∧ last = x ∧ after = []) ∨
        ∃ rest, after = rest ++ [last] ∧ xs = before ++ x :: rest := by
  constructor
  · intro h
    induction after using List.reverseRec with
    | nil =>
        obtain ⟨hxs, hlast⟩ := List.append_singleton_inj.mp h
        exact Or.inl ⟨hxs, hlast, rfl⟩
    | append_singleton rest other _ =>
        rw [← List.cons_append, ← List.append_assoc] at h
        obtain ⟨hxs, hlast⟩ := List.append_singleton_inj.mp h
        exact Or.inr ⟨rest, by rw [hlast], hxs⟩
  · intro h
    rcases h with ⟨rfl, rfl, rfl⟩ | ⟨rest, rfl, rfl⟩
    · rfl
    · simp

theorem changedSince_append_singleton (api : EffectiveParameters) (commands : List Command)
    (command : Command) :
    api.ChangedSince (commands ++ [command]) ↔
      (∃ c, command = .change c ∧ c.TakesEffect (api.performAll commands).parameters) ∨
        (api.ChangedSince commands ∧
          (command = .resynthesize →
            ∃ e, (api.performAll commands).resynthesize.1 = .error e)) := by
  constructor
  · intro ⟨before, c, after, hsplit, heffect, hfails⟩
    rcases append_singleton_eq_iff.mp hsplit with ⟨rfl, rfl, -⟩ | ⟨rest, rfl, rfl⟩
    · exact Or.inl ⟨c, rfl, heffect⟩
    · refine Or.inr ⟨⟨before, c, rest, rfl, heffect, fun middle later hrest => ?_⟩, ?_⟩
      · exact hfails middle (later ++ [command]) (by simp [hrest])
      · intro hcommand
        exact hfails rest [] (by rw [hcommand])
  · intro h
    rcases h with ⟨c, rfl, heffect⟩ | ⟨⟨before, c, after, rfl, heffect, hfails⟩, hlast⟩
    · refine ⟨commands, c, [], rfl, heffect, fun middle rest hnil => ?_⟩
      exact absurd hnil (by simp)
    · refine ⟨before, c, after ++ [command], by simp, heffect, fun middle rest hrest => ?_⟩
      rcases append_singleton_eq_iff.mp hrest with ⟨rfl, hcommand, -⟩ | ⟨later, -, hafter⟩
      · exact hlast hcommand
      · exact hfails middle later hafter

/-- Along every run, parameters are stale exactly while a change is not followed by a synthesis. -/
theorem isStale_performAll_iff (h : api.Coherent) (hfresh : api.isStale = false)
    (commands : List Command) :
    (api.performAll commands).isStale = true ↔ api.ChangedSince commands := by
  induction commands using List.reverseRec with
  | nil => simp [performAll, hfresh, ChangedSince]
  | append_singleton before command ih =>
      rw [performAll_append_singleton, changedSince_append_singleton, ← ih]
      exact isStale_perform_iff (coherent_performAll h before) command

/-! ## Parameters that are not stale -/

theorem resynthesize_of_fresh (h : api.Coherent) (hfresh : api.isStale = false) :
    api.resynthesize = (.ok (), api) := by
  have hversion := isStale_eq_false_iff.mp hfresh
  rw [resynthesize_of_ok (h.inSync hfresh), hversion]

/-- As long as parameters are not stale, no command misses an item or a facet. -/
theorem not_targetLost_of_fresh (h : api.Coherent) (hfresh : api.isStale = false)
    {command : Command} {e : SynthesisError} (herror : (api.perform command).1 = some e) :
    ¬ e.TargetLost := by
  have hends := api.ends_perform command
  generalize api.perform command = outcome at hends herror
  cases hends with
  | changed c => cases herror
  | renewed hsynthesize => cases herror
  | notRenewed hsynthesize =>
      rw [h.inSync hfresh] at hsynthesize
      cases hsynthesize
  | called hcall hends =>
      cases hends with
      | unknown method =>
          cases herror
          exact id
      | failed hget hends =>
          cases herror
          obtain ⟨item, hfind, hexposes⟩ :=
            Parameters.exposes_of_get? h.distinct (h.inSync hfresh) hget
          exact hends.not_targetLost hfind hexposes
      | answered => cases herror

/-! ## Options and versions along a run -/

theorem options_perform (api : EffectiveParameters) (command : Command) :
    (api.perform command).2.options = api.options := by
  have hends := api.ends_perform command
  generalize api.perform command = outcome at hends ⊢
  cases hends with
  | changed c => rfl
  | renewed hsynthesize => rfl
  | notRenewed hsynthesize => rfl
  | called hcall hends =>
      obtain ⟨q, hq, -, -⟩ := hends.shape_version
      rw [hq]

theorem options_performAll (api : EffectiveParameters) (commands : List Command) :
    (api.performAll commands).options = api.options := by
  induction commands using List.reverseRec with
  | nil => rfl
  | append_singleton before command ih =>
      rw [performAll_append_singleton, options_perform, ih]

theorem isStructural_of_takesEffect {p : Parameters} {c : ParametersChange} (h : c.TakesEffect p) :
    (Command.change c).isStructural = true := by
  cases c with
  | write name w => exact h.elim
  | _ => rfl

theorem version_perform_le (api : EffectiveParameters) (command : Command) :
    (api.perform command).2.parameters.version ≤
      api.parameters.version + [command].countP Command.isStructural := by
  have hends := api.ends_perform command
  generalize api.perform command = outcome at hends ⊢
  cases hends with
  | changed c =>
      dsimp only
      by_cases heffect : c.TakesEffect api.parameters
      · rw [Parameters.version_change heffect, List.countP_singleton,
          isStructural_of_takesEffect heffect]
        exact Nat.le_refl _
      · rw [(Parameters.change_of_not_takesEffect heffect).2]
        omega
  | renewed hsynthesize => exact Nat.le_add_right _ _
  | notRenewed hsynthesize => exact Nat.le_add_right _ _
  | called hcall hends =>
      obtain ⟨q, hq, -, hversion⟩ := hends.shape_version
      rw [hq]
      dsimp only
      omega

theorem version_performAll_le (api : EffectiveParameters) (commands : List Command) :
    (api.performAll commands).parameters.version ≤
      api.parameters.version + commands.countP Command.isStructural := by
  induction commands using List.reverseRec with
  | nil => exact Nat.le_refl _
  | append_singleton before command ih =>
      have hstep := version_perform_le (api.performAll before) command
      rw [performAll_append_singleton, List.countP_append]
      omega

theorem synthesizedVersion_perform_ge (h : api.Coherent) (command : Command) :
    api.synthesizedVersion ≤ (api.perform command).2.synthesizedVersion := by
  have hends := api.ends_perform command
  generalize api.perform command = outcome at hends ⊢
  cases hends with
  | changed c => exact Nat.le_refl _
  | renewed hsynthesize => exact h.synthesizedVersion_le
  | notRenewed hsynthesize => exact Nat.le_refl _
  | called hcall hends =>
      obtain ⟨q, hq, -, -⟩ := hends.shape_version
      rw [hq]

theorem synthesizedVersion_performAll_ge (h : api.Coherent) (commands : List Command) :
    api.synthesizedVersion ≤ (api.performAll commands).synthesizedVersion := by
  induction commands using List.reverseRec with
  | nil => exact Nat.le_refl _
  | append_singleton before command ih =>
      have hstep := synthesizedVersion_perform_ge (coherent_performAll h before) command
      rw [performAll_append_singleton]
      omega

/-- In fewer structural commands than a word of 64 bits counts, versions do not repeat. -/
theorem isStale_iff_mod (h : api.Coherent) (hfresh : api.isStale = false) {commands : List Command}
    (hcount : commands.countP Command.isStructural < UInt64.size) :
    (api.performAll commands).isStale = true ↔
      (api.performAll commands).parameters.version % UInt64.size ≠
        (api.performAll commands).synthesizedVersion % UInt64.size := by
  have hversion := isStale_eq_false_iff.mp hfresh
  have hupper := api.version_performAll_le commands
  have hlower := synthesizedVersion_performAll_ge h commands
  have hle := (coherent_performAll h commands).synthesizedVersion_le
  rw [isStale_iff]
  unfold UInt64.size at hcount ⊢
  omega

/-- Parameters are stale exactly from a change that takes effect to the next synthesis that
succeeds; while they are not, the table is the one of the container and no target is missed; a
synthesis that fails leaves everything as it was. -/
theorem isStale_exact (p : Parameters) (options : SynthesisOptions) (api : EffectiveParameters)
    (distinct : p.NamesDistinct) (made : ofParameters p options = .ok api)
    (commands : List Command) (final : EffectiveParameters)
    (reached : api.performAll commands = final) :
    (final.isStale = true ↔ api.ChangedSince commands) ∧
    (final.isStale = false →
      final.parameters.synthesize options = .ok final.methods ∧
        final.resynthesize = (.ok (), final) ∧
        ∀ command e, (final.perform command).1 = some e → ¬ e.TargetLost) ∧
    (∀ e, final.resynthesize.1 = .error e → final.resynthesize.2 = final) ∧
    (final.resynthesize.1 = .ok () →
      final.resynthesize.2.isStale = false ∧
        final.resynthesize.2.parameters = final.parameters) ∧
    (commands.countP Command.isStructural < UInt64.size →
      (final.isStale = true ↔
        final.parameters.version % UInt64.size ≠ final.synthesizedVersion % UInt64.size)) := by
  have hcoherent : api.Coherent := coherent_ofParameters distinct made
  obtain ⟨methods, -, hapi⟩ := ofParameters_eq_ok_iff.mp made
  have hfresh : api.isStale = false := by
    rw [hapi, isStale_eq_false_iff]
  have hoptions : final.options = options := by
    rw [← reached, options_performAll, hapi]
  have hfinal : final.Coherent := reached ▸ coherent_performAll hcoherent commands
  refine ⟨?_, ?_, ?_, ?_, ?_⟩
  · rw [← reached]
    exact isStale_performAll_iff hcoherent hfresh commands
  · intro hsync
    refine ⟨?_, resynthesize_of_fresh hfinal hsync, fun command e herror =>
      not_targetLost_of_fresh hfinal hsync herror⟩
    rw [← hoptions]
    exact hfinal.inSync hsync
  · intro e herror
    cases hsynthesize : final.parameters.synthesize final.options with
    | error e => rw [resynthesize_of_error hsynthesize]
    | ok methods =>
        rw [resynthesize_of_ok hsynthesize] at herror
        cases herror
  · intro hsuccess
    cases hsynthesize : final.parameters.synthesize final.options with
    | error e =>
        rw [resynthesize_of_error hsynthesize] at hsuccess
        cases hsuccess
    | ok methods =>
        rw [resynthesize_of_ok hsynthesize, isStale_eq_false_iff]
        exact ⟨rfl, rfl⟩
  · intro hcount
    rw [← reached]
    exact isStale_iff_mod hcoherent hfresh hcount

theorem isStale_exact_twins :
    Parameters.twins.NamesDistinct ∧
      ∃ api, ofParameters Parameters.twins {} = .ok api ∧
        (api.performAll [.change (.remove "max-iterations"),
          .call "maxIterations" []]).isStale = true := by
  have distinct : Parameters.twins.NamesDistinct := by decide
  cases made : ofParameters Parameters.twins {} with
  | error e =>
      have hok : (ofParameters Parameters.twins {}).isOk = true := by decide +kernel
      rw [made] at hok
      cases hok
  | ok api =>
      obtain ⟨methods, -, hapi⟩ := ofParameters_eq_ok_iff.mp made
      have hstale := (isStale_exact Parameters.twins {} api distinct made
        [.change (.remove "max-iterations"), .call "maxIterations" []] _ rfl).1
      refine ⟨distinct, api, rfl, hstale.mpr
        ⟨[], .remove "max-iterations", [.call "maxIterations" []], rfl, ?_, ?_⟩⟩
      · rw [hapi]
        change "max-iterations" ∈ Parameters.twins.itemNames
        decide
      · intro middle rest hsplit
        have hmem : Command.resynthesize ∈ [Command.call "maxIterations" []] := by
          rw [hsplit]
          simp
        simp at hmem

end EffectiveParameters

end MethodSynthesis
