import ClassLint.Proofs.FloatValues
import ClassLint.Proofs.MethodReports

/-!
# Magic numbers in method bodies

The check for magic numbers reports at once what it sees, so its reports on a
class are those on the instructions of its methods, one after the other.  Which
numbers need a name is said here for each form of a literal in its own width, and
for floating literals also by the number that the bits stand for.
-/

namespace ClassLint

namespace MagicNumber

/-- Whether a number stands in an instruction that needs a name.  Floating numbers
are told by their bits: the plain ones are the two zeros and one. -/
def Magic : Instruction → Prop
  | .push value => value ∉ [-1, 0, 1]
  | .loadConstant (.integer value) => value ∉ [-1, 0, 1]
  | .loadConstant (.long value) => value ∉ [-1, 0, 1]
  | .loadConstant (.float bits) => bits ∉ [0x00000000, 0x80000000, 0x3F800000]
  | .loadConstant (.double bits) =>
      bits ∉ [0x0000000000000000, 0x8000000000000000, 0x3FF0000000000000]
  | _ => False

instance : DecidablePred Magic
  | .push _ => inferInstanceAs (Decidable (_ ∉ _))
  | .loadConstant (.integer _) => inferInstanceAs (Decidable (_ ∉ _))
  | .loadConstant (.long _) => inferInstanceAs (Decidable (_ ∉ _))
  | .loadConstant (.float _) => inferInstanceAs (Decidable (_ ∉ _))
  | .loadConstant (.double _) => inferInstanceAs (Decidable (_ ∉ _))
  | .loadConstant (.other _) => inferInstanceAs (Decidable False)
  | .simple _ | .fieldAccess _ _ | .call _ _ _ | .localAccess _ _ | .typeReference _ _
  | .jump _ _ | .other _ => inferInstanceAs (Decidable False)

/-- How the number in an instruction is shown. -/
def shown : Instruction → String
  | .push value => toString value.toInt
  | .loadConstant constant => constant.text
  | _ => ""

theorem isPlainIntegral_iff (value : Int64) :
    isPlainIntegral value = true ↔ -1 ≤ value.toInt ∧ value.toInt ≤ 1 := by
  have minusOne : (-1 : Int64).toInt = -1 := by decide
  simp only [isPlainIntegral, Bool.and_eq_true, decide_eq_true_eq, Int64.le_iff_toInt_le,
    minusOne, Int64.toInt_one]

theorem isPlainFloating_iff (value : Decimal.FloatValue) :
    isPlainFloating value = true ↔ value.rational? ∈ [some 0, some 1] := by
  simp [isPlainFloating, Decimal.FloatValue.equals_finite_iff, Decimal.FloatValue.rational?]

theorem isPlain_iff (constant : Constant) :
    isPlain constant = true ↔ ¬Magic (.loadConstant constant) := by
  cases constant with
  | integer value =>
      have minusOne : (-1 : Int32).toInt = -1 := by decide
      simp only [isPlain, isPlainIntegral_iff, Int32.toInt_toInt64, Magic, not_not,
        List.mem_cons, List.not_mem_nil, or_false, ← Int32.toInt_inj, minusOne,
        Int32.toInt_zero, Int32.toInt_one]
      omega
  | long value =>
      have minusOne : (-1 : Int64).toInt = -1 := by decide
      simp only [isPlain, isPlainIntegral_iff, Magic, not_not, List.mem_cons, List.not_mem_nil,
        or_false, ← Int64.toInt_inj, minusOne, Int64.toInt_zero, Int64.toInt_one]
      omega
  | float bits =>
      rw [isPlain, isPlainFloating_iff, Decimal.single_rational?_iff, Magic, not_not]
  | double bits =>
      rw [isPlain, isPlainFloating_iff, Decimal.double_rational?_iff, Magic, not_not]
  | other text => simp [isPlain, Magic]

/-- What the check says about the number in an instruction. -/
def text (method : String) (instruction : Instruction) : String :=
  "Magic number " ++ shown instruction ++ " used in method '" ++ method ++
    "'. Consider extracting a named constant."

theorem findings_initializer {method : OpenMethod} (initializes : method.isInitializer = true)
    (instruction : Instruction) : findings method instruction = [] := by
  rw [findings, if_pos initializes]

theorem findings_ordinary {method : OpenMethod} (ordinary : method.isInitializer = false)
    (instruction : Instruction) :
    findings method instruction =
      if Magic instruction then [text method.name instruction] else [] := by
  rw [findings, ordinary, if_neg Bool.false_ne_true]
  cases instruction with
  | push value =>
      -- A pushed number is judged and shown like a loaded one.
      have judged : Magic (.push value) ↔ Magic (.loadConstant (.integer value)) := Iff.rfl
      simp only [literal?, isPlain_iff, ite_not, judged]
      rfl
  | loadConstant constant =>
      -- A constant that is no number is passed over before it is judged.
      cases numeric : constant.isNumeric with
      | true =>
          simp only [literal?, numeric, if_true, isPlain_iff, ite_not]
          rfl
      | false =>
          have plain : ¬Magic (.loadConstant constant) := by
            cases constant with
            | other text => exact id
            | integer _ | long _ | float _ | double _ => cases numeric
          simp [literal?, numeric, plain]
  | simple _ | fieldAccess _ _ | call _ _ _ | localAccess _ _ | typeReference _ _ | jump _ _
  | other _ => rfl

/-- The messages on a method. -/
def messages (method : MethodOutline) : List String :=
  method.instructions.flatMap
    (findings ⟨method.declaration.name, method.declaration.isInitializer⟩)

theorem emits_instruction (method : OpenMethod) (instruction : Instruction) :
    check.Emits (fun scope : MethodScope => scope = some method) [.instruction instruction]
      (findings method instruction) (fun scope : MethodScope => scope = some method) := by
  apply Check.emits_singleton
  rintro context scope rfl
  exact ⟨rfl, rfl, rfl⟩

theorem emits_method (method : MethodOutline) :
    check.Emits (fun scope : MethodScope => scope = none) method.events (messages method)
      (fun scope : MethodScope => scope = none) := by
  let opened : OpenMethod := ⟨method.declaration.name, method.declaration.isInitializer⟩
  have emitsStart : check.Emits (fun scope : MethodScope => scope = none)
      [.methodStart method.declaration] [] (fun scope : MethodScope => scope = some opened) := by
    apply Check.emits_singleton
    rintro context scope rfl
    exact ⟨rfl, rfl, rfl⟩
  have emitsBody : check.Emits (fun scope : MethodScope => scope = some opened)
      (method.instructions.map .instruction) (messages method)
      (fun scope : MethodScope => scope = some opened) := by
    rw [List.map_eq_flatMap]
    exact Check.emits_flatMap (emits_instruction opened) method.instructions
  have emitsEnd : check.Emits (fun scope : MethodScope => scope = some opened) [.methodEnd] []
      (fun scope : MethodScope => scope = none) := by
    apply Check.emits_singleton
    rintro context scope rfl
    exact ⟨rfl, rfl, rfl⟩
  simpa [MethodOutline.events] using emitsStart.append (emitsBody.append emitsEnd)

theorem quiet_outside_methods (context : CheckContext) (scope : check.State) (event : Event)
    (outside : event.kind ∈ [EventKind.classHeader, .field, .classEnd]) :
    (check.react context scope event).reports = [] := by
  cases event with
  | classHeader header => rfl
  | field field => rfl
  | classEnd =>
      simp only [check, react]
      split <;> rfl
  | methodStart _ | instruction _ | methodEnd => simp [Event.kind] at outside

theorem flatMap_messages (methods : List MethodOutline) :
    methods.flatMap messages =
      (methods.filter fun method => method.declaration.name ∉ ["<init>", "<clinit>"]).flatMap
        fun method =>
          (method.instructions.filter (Magic ·)).map (text method.declaration.name) := by
  induction methods with
  | nil => rfl
  | cons method methods ih =>
      rw [List.flatMap_cons, ih, List.filter_cons]
      simp only [decide_eq_true_eq]
      by_cases named : method.declaration.name ∈ ["<init>", "<clinit>"]
      · have initializes := MethodDeclaration.isInitializer_iff.mpr named
        have silent : messages method = [] := by
          rw [messages, List.flatMap_eq_nil_iff]
          exact fun instruction _ => findings_initializer initializes instruction
        rw [silent, List.nil_append, if_neg (not_not.mpr named)]
      · have ordinary : method.declaration.isInitializer = false := by
          rwa [← MethodDeclaration.isInitializer_iff, Bool.not_eq_true] at named
        have reported : messages method =
            (method.instructions.filter (Magic ·)).map (text method.declaration.name) := by
          rw [messages, funext (findings_ordinary ordinary)]
          exact flatMap_ite_eq_map_filter Magic _ method.instructions
        rw [reported, if_pos named, List.flatMap_cons]

/-- On the events of a class the check for magic numbers reports each number that
needs a name, at each place in the methods that are no initialisers, in the order of
the program, with the method and the number as it is shown.  A floating number needs
a name unless it equals zero or one, so infinities, what is not a number and
subnormal numbers need one. -/
theorem replay_outline_magicNumbers (className : String) (earlier : MethodScope)
    (outline : ClassOutline) :
    let replay := check.replay className (check.reset earlier) outline.events
    replay.stop = none ∧
      replay.reports =
        ((outline.methods.filter fun method =>
          method.declaration.name ∉ ["<init>", "<clinit>"]).flatMap fun method =>
            (method.instructions.filter (Magic ·)).map fun instruction =>
              "Magic number " ++ shown instruction ++ " used in method '" ++
                method.declaration.name ++ "'. Consider extracting a named constant.") ∧
      (∀ bits, Magic (.loadConstant (.float bits)) ↔
        (Decimal.single.value bits.toNat).rational? ∉ [some 0, some 1]) ∧
      ∀ bits, Magic (.loadConstant (.double bits)) ↔
        (Decimal.double.value bits.toNat).rational? ∉ [some 0, some 1] := by
  intro replay
  have emits := (Check.ClassInvariant.ofScope tracksScope).emits_class quiet_outside_methods
    emits_method outline
  obtain ⟨reportsEq, stopEq⟩ : replay.reports = outline.methods.flatMap messages ∧
      replay.stop = none :=
    emits.replay className trivial
  refine ⟨stopEq, ?_, ?_, ?_⟩
  · rw [reportsEq, flatMap_messages]
    rfl
  · intro bits
    rw [Decimal.single_rational?_iff]
    rfl
  · intro bits
    rw [Decimal.double_rational?_iff]
    rfl

end MagicNumber

end ClassLint
