import MethodSynthesis.Proofs.RoundTrip
import MethodSynthesis.Proofs.TokenCharacters
import MethodSynthesis.Scenario.Call

/-!
# Methods that a call can name

In the text of a call the name of the method starts with a letter or an underscore. A method that
writes starts with its verb and can always be called. A getter starts with the name of its item, and
cannot be called when that starts with a digit.
-/

namespace MethodSynthesis

open Naming

/-! ## Calls without arguments -/

namespace Call

variable {c : Char} {name rest : List Char} {method : String}

theorem isNameChar_of_isAlphanumeric (h : isAlphanumeric c = true) : isNameChar c = true := by
  rw [isAlphanumeric_eq_isAlphanum] at h
  simp [isNameChar, h]

theorem isNameStart_of_isAlphanumeric (h : isAlphanumeric c = true) :
    isNameStart c = !c.isDigit := by
  rw [isAlphanumeric_eq_isAlphanum, Char.isAlphanum, Bool.or_eq_true] at h
  rcases h with hletter | hdigit
  · simp [isNameStart, hletter, isDigit_eq_false_of_isAlpha hletter]
  · have hletter : c.isAlpha = false := Bool.eq_false_iff.mpr fun hletter => by
      rw [isDigit_eq_false_of_isAlpha hletter] at hdigit
      cases hdigit
    have hline : c ≠ '_' := by
      rintro rfl
      cases hdigit
    simp [isNameStart, hletter, hdigit, hline]

theorem isName_of_alphanumeric (halphanumeric : Alphanumeric method)
    (hmethod : method.toList = c :: rest) : isName method.toList = !c.isDigit := by
  rw [Alphanumeric, hmethod, List.forall_mem_cons] at halphanumeric
  obtain ⟨hc, hrest⟩ := halphanumeric
  have hall : rest.all isNameChar = true :=
    List.all_eq_true.mpr fun x hx => isNameChar_of_isAlphanumeric (hrest x hx)
  simp [hmethod, isName, isNameStart_of_isAlphanumeric hc, hall]

theorem split?_brackets (h : ∀ c ∈ name, isNameChar c = true) :
    split? (name ++ ['(', ')']) = if isName name then some (name, []) else none := by
  have hname : (name ++ ['(', ')']).takeWhile isNameChar = name := by
    rw [List.takeWhile_append_of_pos h]
    simp [isNameChar]
  have hrest : (name ++ ['(', ')']).dropWhile isNameChar = ['(', ')'] := by
    rw [List.dropWhile_append_of_pos h]
    simp [isNameChar]
  simp only [split?, hname, hrest]
  rfl

theorem ofText_brackets (h : ∀ c ∈ method.toList, isNameChar c = true) :
    ofText (method ++ "()") =
      if isName method.toList then .ok ⟨method, []⟩ else .error (.notACall (method ++ "()")) := by
  have hline : (method ++ "()").toList = method.toList ++ ['(', ')'] := String.toList_append
  rw [ofText, hline, split?_brackets h]
  by_cases hname : isName method.toList = true
  · simp only [hname, if_true, String.ofList_toList]
    rfl
  · simp only [hname, if_false, Bool.false_eq_true]

end Call

/-! ## Methods under the default verbs -/

namespace MethodNames

variable {name : String} {names : MethodNames}

/-- A getter starts with a digit when the name of its item does, and another method never. -/
theorem exists_method_eq_cons (h : derive? name = some names) (kind : MethodKind) :
    ∃ c rest, (names.method kind {}).toList = c :: rest ∧
      (c.isDigit = true ↔ kind.IsGetter ∧ LeadsWithDigit name) := by
  obtain ⟨first, rest, hfirst, hcamel⟩ := exists_camel_eq_cons h
  have hdigit : first.toLower.isDigit = true ↔ LeadsWithDigit name := by
    rw [isDigit_toLower, leadsWithDigit_iff h, hfirst]
    rfl
  cases kind with
  | setValue => exact ⟨'s', _, String.toList_append, by simp [MethodKind.IsGetter]⟩
  | value => exact ⟨_, _, hcamel, by simp [MethodKind.IsGetter, hdigit]⟩
  | enable => exact ⟨'e', _, String.toList_append, by simp [MethodKind.IsGetter]⟩
  | isEnabled =>
      refine ⟨first.toLower, rest ++ "Enabled".toList, ?_, by simp [MethodKind.IsGetter, hdigit]⟩
      rw [method, String.toList_append, hcamel, List.cons_append]
  | setDiscreteIndex =>
      have hchars : (names.method .setDiscreteIndex {}).toList =
          's' :: ("et" ++ (names.pascal ++ "Index")).toList := by
        rw [method, String.append_assoc]
        simp
      exact ⟨'s', _, hchars, by simp [MethodKind.IsGetter]⟩
  | discreteIndex =>
      refine ⟨first.toLower, rest ++ "Index".toList, ?_, by simp [MethodKind.IsGetter, hdigit]⟩
      rw [method, String.toList_append, hcamel, List.cons_append]

theorem isName_method_iff (h : derive? name = some names) (kind : MethodKind) :
    Call.isName (names.method kind {}).toList = true ↔
      ¬ (kind.IsGetter ∧ LeadsWithDigit name) := by
  obtain ⟨c, rest, hmethod, hdigit⟩ := exists_method_eq_cons h kind
  rw [Call.isName_of_alphanumeric (alphanumeric_method h kind) hmethod, ← hdigit]
  simp

end MethodNames

namespace Parameters

variable {p : Parameters} {table : MethodTable}

/-- Of the methods that synthesis with the default options binds, a call can name all but the
getters of items whose names start with a digit: it reads these as no call, and any other, written
with empty brackets, as the call of just this method without arguments. -/
theorem ofText_synthesized_iff (synthesized : p.synthesize {} = .ok table) :
    ∀ method binding, table.get? method = some binding →
      (Call.ofText (method ++ "()") = .ok ⟨method, []⟩ ↔
        ¬ (binding.kind.IsGetter ∧ LeadsWithDigit binding.item)) ∧
      (binding.kind.IsGetter → LeadsWithDigit binding.item →
        Call.ofText (method ++ "()") = .error (.notACall (method ++ "()"))) := by
  intro method binding hbound
  obtain ⟨item, -, hcandidate⟩ :=
    mem_candidates_iff.mp (mem_candidates_of_get? synthesized hbound)
  obtain ⟨howner, -, names, hnames, rfl⟩ := Item.mem_candidates_iff.mp hcandidate
  rw [← howner] at hnames
  have halphanumeric := MethodNames.alphanumeric_method hnames binding.kind
  have hname := MethodNames.isName_method_iff hnames binding.kind
  rw [Call.ofText_brackets fun c hc => Call.isNameChar_of_isAlphanumeric (halphanumeric c hc)]
  constructor
  · rw [← hname]
    split <;> simp_all
  · intro hgetter hdigit
    rw [if_neg fun h => hname.mp h ⟨hgetter, hdigit⟩]

/-- A number whose name starts with a digit, one whose name starts with a sharp s, and a switch
whose name starts with a sign before a digit. -/
def mesh : Parameters where
  name := "mesh"
  items :=
    [.value ⟨{ name := "3d mesh size", type := .int }, [], [.int 4], false⟩,
      .value ⟨{ name := "ßeta 2", type := .double }, [], [.null], false⟩,
      .switch ⟨{ name := "- 2nd pass", type := .void, optional := true }, false⟩]
  version := 3

def meshMethods : MethodTable :=
  ⟨[("2ndPassEnabled", ⟨"- 2nd pass", .isEnabled⟩), ("3dMeshSize", ⟨"3d mesh size", .value⟩),
    ("enable2NdPass", ⟨"- 2nd pass", .enable⟩), ("set3DMeshSize", ⟨"3d mesh size", .setValue⟩),
    ("setSseta2", ⟨"ßeta 2", .setValue⟩), ("sseta2", ⟨"ßeta 2", .value⟩)]⟩

theorem ofText_synthesized_iff_mesh :
    ∃ table, mesh.synthesize {} = .ok table ∧
      table.get? "sseta2" = some ⟨"ßeta 2", .value⟩ ∧
      Call.ofText ("sseta2" ++ "()") = .ok ⟨"sseta2", []⟩ ∧
      table.get? "enable2NdPass" = some ⟨"- 2nd pass", .enable⟩ ∧
      Call.ofText ("enable2NdPass" ++ "()") = .ok ⟨"enable2NdPass", []⟩ ∧
      table.get? "2ndPassEnabled" = some ⟨"- 2nd pass", .isEnabled⟩ ∧
      Call.ofText ("2ndPassEnabled" ++ "()") = .error (.notACall ("2ndPassEnabled" ++ "()")) := by
  have synthesized : mesh.synthesize {} = .ok meshMethods := by decide +kernel
  have hcalls := ofText_synthesized_iff synthesized
  refine ⟨_, synthesized, by decide, ?_, by decide, ?_, by decide, ?_⟩
  · exact (hcalls "sseta2" ⟨"ßeta 2", .value⟩ (by decide)).1.mpr fun h =>
      absurd h.2 (by decide +kernel)
  · exact (hcalls "enable2NdPass" ⟨"- 2nd pass", .enable⟩ (by decide)).1.mpr fun h => h.1
  · exact (hcalls "2ndPassEnabled" ⟨"- 2nd pass", .isEnabled⟩ (by decide)).2 trivial
      (by decide +kernel)

/-- The getter of the first item answers when its method is called, but no call can be read with
its name. -/
theorem getter_notACall_mesh :
    (∃ api, EffectiveParameters.ofParameters mesh {} = .ok api ∧
      api.methods.get? "3dMeshSize" = some ⟨"3d mesh size", .value⟩ ∧
      (api.call "3dMeshSize" []).1 = .ok (.int 4)) ∧
    Call.ofText ("3dMeshSize" ++ "()") = .error (.notACall ("3dMeshSize" ++ "()")) := by
  refine ⟨⟨⟨mesh, {}, meshMethods, 3⟩, ?_⟩, ?_⟩
  · decide +kernel
  · rw [Call.ofText_brackets (List.all_eq_true.mp (by decide)), if_neg (by decide)]

end Parameters

end MethodSynthesis
