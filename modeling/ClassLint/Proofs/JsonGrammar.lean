import ClassLint.Document.Json

/-!
# The JSON grammar

The grammar says which texts are JSON documents and which value each of them has.
This file states it as a relation and shows that the reader accepts every document
and finds its value, so no document has two values.
-/

namespace ClassLint

namespace Json

/-! ## Words of the grammar -/

/-- Blank space between the parts of a document. -/
def Blank (chars : List Char) : Prop :=
  ∀ char ∈ chars, char ∈ [' ', '\t', '\n', '\r']

instance (chars : List Char) : Decidable (Blank chars) :=
  List.decidableBAll (· ∈ [' ', '\t', '\n', '\r']) chars

/-- One or more decimal digits. -/
def DigitRun (chars : List Char) : Prop :=
  chars ≠ [] ∧ ∀ char ∈ chars, char.isDigit = true

/-- The digits before the point, without idle zeros. -/
def WholePart (chars : List Char) : Prop :=
  chars = ['0'] ∨ DigitRun chars ∧ chars.head? ≠ some '0'

def FractionPart (chars : List Char) : Prop :=
  chars = [] ∨ ∃ digits, DigitRun digits ∧ chars = '.' :: digits

def ExponentPart (chars : List Char) : Prop :=
  chars = [] ∨ ∃ mark sign digits, mark ∈ ['e', 'E'] ∧ sign ∈ [[], ['+'], ['-']] ∧
    DigitRun digits ∧ chars = mark :: (sign ++ digits)

/-- How a number is written. -/
structure NumberLiteral (sign whole fraction exponent : List Char) : Prop where
  sign : sign ∈ [[], ['-']]
  whole : WholePart whole
  fraction : FractionPart fraction
  exponent : ExponentPart exponent

/-- The characters that are written as a backslash and a letter. -/
def shortEscapes : List (Char × Char) :=
  [('"', '"'), ('\\', '\\'), ('/', '/'), ('b', '\x08'), ('f', '\x0c'), ('n', '\n'), ('r', '\r'),
    ('t', '\t')]

/-- Four hexadecimal digits and the UTF-16 unit they stand for. -/
inductive UnitDigits : List Char → Nat → Prop
  | mk {first second third fourth : Char} {a b c d : Nat}
      (firstEq : Digits.value? first = some a) (secondEq : Digits.value? second = some b)
      (thirdEq : Digits.value? third = some c) (fourthEq : Digits.value? fourth = some d) :
      UnitDigits [first, second, third, fourth] (((a * 16 + b) * 16 + c) * 16 + d)

/-- What stands between the quotes of a text, and the text it stands for.  A unit
outside the range of surrogates is a character by itself; a leading and a trailing
surrogate are one character together. -/
inductive TextBody : List Char → List Char → Prop
  | nil : TextBody [] []
  | plain {char : Char} {content body : List Char} (notQuote : char ≠ '"')
      (notBackslash : char ≠ '\\') (notControl : 0x20 ≤ char.toNat)
      (rest : TextBody content body) : TextBody (char :: content) (char :: body)
  | short {letter char : Char} {content body : List Char} (listed : (letter, char) ∈ shortEscapes)
      (rest : TextBody content body) : TextBody (char :: content) ('\\' :: letter :: body)
  | unit {digits content body : List Char} {unit : Nat} (digitsEq : UnitDigits digits unit)
      (single : unit < 0xD800 ∨ 0xDFFF < unit) (rest : TextBody content body) :
      TextBody (Char.ofNat unit :: content) ('\\' :: 'u' :: (digits ++ body))
  | pair {leadingDigits trailingDigits content body : List Char} {leading trailing : Nat}
      (leadingEq : UnitDigits leadingDigits leading)
      (trailingEq : UnitDigits trailingDigits trailing)
      (isLeading : 0xD800 ≤ leading ∧ leading ≤ 0xDBFF)
      (isTrailing : 0xDC00 ≤ trailing ∧ trailing ≤ 0xDFFF) (rest : TextBody content body) :
      TextBody (Char.ofNat (0x10000 + (leading - 0xD800) * 0x400 + (trailing - 0xDC00)) :: content)
        ('\\' :: 'u' :: (leadingDigits ++ '\\' :: 'u' :: (trailingDigits ++ body)))

/-! ## Phrases -/

/-- The phrases of the grammar. -/
inductive Phrase where
  | value (value : Value)
  /-- A value with blank space around it. -/
  | padded (value : Value)
  /-- Items of an array, separated by commas. -/
  | items (items : List Value)
  | member (name : String) (value : Value)
  /-- Members of an object, separated by commas. -/
  | members (members : List (Option String × Value))

/-- How phrases are written. -/
inductive Written : Phrase → List Char → Prop
  | null : Written (.value .null) ['n', 'u', 'l', 'l']
  | true : Written (.value (.boolean true)) ['t', 'r', 'u', 'e']
  | false : Written (.value (.boolean false)) ['f', 'a', 'l', 's', 'e']
  | number {sign whole fraction exponent : List Char}
      (literal : NumberLiteral sign whole fraction exponent) :
      Written (.value (.number (String.ofList (sign ++ whole ++ fraction ++ exponent))))
        (sign ++ whole ++ fraction ++ exponent)
  | text {content body : List Char} (spelled : TextBody content body) :
      Written (.value (.text (some (String.ofList content)))) ('"' :: (body ++ ['"']))
  | emptyArray {chars : List Char} (blank : Blank chars) :
      Written (.value (.array [])) ('[' :: (chars ++ [']']))
  | array {items : List Value} {chars : List Char} (written : Written (.items items) chars) :
      Written (.value (.array items)) ('[' :: (chars ++ [']']))
  | emptyObject {chars : List Char} (blank : Blank chars) :
      Written (.value (.object [])) ('\x7b' :: (chars ++ ['\x7d']))
  | object {members : List (Option String × Value)} {chars : List Char}
      (written : Written (.members members) chars) :
      Written (.value (.object members)) ('\x7b' :: (chars ++ ['\x7d']))
  | padded {value : Value} {before chars after : List Char} (blankBefore : Blank before)
      (written : Written (.value value) chars) (blankAfter : Blank after) :
      Written (.padded value) (before ++ (chars ++ after))
  | lastItem {value : Value} {chars : List Char} (written : Written (.padded value) chars) :
      Written (.items [value]) chars
  | item {value : Value} {items : List Value} {chars rest : List Char}
      (written : Written (.padded value) chars) (others : Written (.items items) rest) :
      Written (.items (value :: items)) (chars ++ ',' :: rest)
  | member {content before body gap chars : List Char} {value : Value}
      (blankBefore : Blank before) (spelled : TextBody content body) (blankGap : Blank gap)
      (written : Written (.padded value) chars) :
      Written (.member (String.ofList content) value)
        (before ++ '"' :: (body ++ '"' :: (gap ++ ':' :: chars)))
  | lastMember {name : String} {value : Value} {chars : List Char}
      (written : Written (.member name value) chars) :
      Written (.members [(some name, value)]) chars
  | members {name : String} {value : Value} {members : List (Option String × Value)}
      {chars rest : List Char} (written : Written (.member name value) chars)
      (others : Written (.members members) rest) :
      Written (.members ((some name, value) :: members)) (chars ++ ',' :: rest)

/-- A text is a JSON document with a value. -/
def Denotes (text : String) (value : Value) : Prop :=
  Written (.padded value) text.toList

/-! ## Tokens of a phrase -/

section Tokens

variable {found : List Token} {chars rest : List Char}

theorem tokensFrom?_blank (blank : Blank chars) :
    tokensFrom? .between found (chars ++ rest) = tokensFrom? .between found rest := by
  induction chars with
  | nil => rfl
  | cons char chars ih =>
      have isBlank : isBlank char = true := by
        have listed := blank char List.mem_cons_self
        simpa [isBlank, or_assoc] using listed
      have begins : Lexing.begin? char = some ([], .between) := by
        unfold Lexing.begin?
        rw [if_pos isBlank]
      have blankRest : Blank chars := fun other member =>
        blank other (List.mem_cons_of_mem _ member)
      rw [List.cons_append, tokensFrom?, Lexing.step?, begins]
      exact ih blankRest

/-- What may follow a number. -/
def Follows (rest : List Char) : Prop :=
  ∀ char ∈ rest.head?, char ∈ [' ', '\t', '\n', '\r', ',', ']', '\x7d']

theorem NumberPhase.next?_eq_none_of_follows {phase : NumberPhase} {char : Char}
    (complete : phase.isComplete = true)
    (listed : char ∈ [' ', '\t', '\n', '\r', ',', ']', '\x7d']) : phase.next? char = none := by
  simp only [List.mem_cons, List.not_mem_nil, or_false] at listed
  revert complete
  rcases listed with rfl | rfl | rfl | rfl | rfl | rfl | rfl <;> cases phase <;> decide

theorem tokensFrom?_endNumber {phase : NumberPhase} {literal : List Char}
    (complete : phase.isComplete = true) (follows : Follows rest) :
    tokensFrom? (.number phase literal) found rest =
      tokensFrom? .between (numberToken literal :: found) rest := by
  cases rest with
  | nil => simp [tokensFrom?, Lexing.finish?, complete]
  | cons char rest =>
      have ends := NumberPhase.next?_eq_none_of_follows complete (follows char rfl)
      rw [tokensFrom?, tokensFrom?, Lexing.step?, Lexing.step?, ends]
      simp only [complete, if_true]
      cases Lexing.begin? char with
      | none => rfl
      | some begun => simp

/-- The phases that characters lead through. -/
def NumberPhase.run? (phase : NumberPhase) (chars : List Char) : Option NumberPhase :=
  chars.foldlM NumberPhase.next? phase

theorem tokensFrom?_run {phase last : NumberPhase} {literal : List Char}
    (runEq : phase.run? chars = some last) :
    tokensFrom? (.number phase literal) found (chars ++ rest) =
      tokensFrom? (.number last (chars.reverse ++ literal)) found rest := by
  induction chars generalizing phase literal with
  | nil =>
      cases runEq
      rfl
  | cons char chars ih =>
      rw [NumberPhase.run?, List.foldlM_cons] at runEq
      obtain ⟨next, nextEq, runEq⟩ := Option.bind_eq_some_iff.mp runEq
      rw [List.cons_append, tokensFrom?, Lexing.step?, nextEq]
      simp only [List.reverse_nil, List.nil_append]
      rw [ih runEq, List.reverse_cons, List.append_assoc]
      rfl

theorem run?_append {phase : NumberPhase} {first second : List Char} :
    phase.run? (first ++ second) = (phase.run? first).bind fun next => next.run? second := by
  simp [NumberPhase.run?, List.foldlM_append, bind]

theorem run?_digits {phase : NumberPhase}
    (stays : ∀ char : Char, char.isDigit = true → phase.next? char = some phase)
    {digits : List Char} (areDigits : ∀ char ∈ digits, char.isDigit = true) :
    phase.run? digits = some phase := by
  induction digits with
  | nil => rfl
  | cons digit digits ih =>
      have isDigit := areDigits digit List.mem_cons_self
      have digitsRest : ∀ char ∈ digits, char.isDigit = true :=
        fun char member => areDigits char (List.mem_cons_of_mem _ member)
      rw [NumberPhase.run?, List.foldlM_cons, stays digit isDigit]
      exact ih digitsRest

/-- A run of digits that opens a part of a number. -/
theorem run?_digitRun {before phase : NumberPhase}
    (enters : ∀ char : Char, char.isDigit = true → before.next? char = some phase)
    (stays : ∀ char : Char, char.isDigit = true → phase.next? char = some phase)
    {digits : List Char} (digitRun : DigitRun digits) : before.run? digits = some phase := by
  obtain ⟨nonempty, areDigits⟩ := digitRun
  cases digits with
  | nil => exact absurd rfl nonempty
  | cons digit digits =>
      have isDigit := areDigits digit List.mem_cons_self
      rw [NumberPhase.run?, List.foldlM_cons, enters digit isDigit]
      exact run?_digits stays fun char member => areDigits char (List.mem_cons_of_mem _ member)

theorem next?_of_isDigit {char : Char} (isDigit : char.isDigit = true) :
    NumberPhase.integer.next? char = some .integer ∧
      NumberPhase.point.next? char = some .fraction ∧
      NumberPhase.fraction.next? char = some .fraction ∧
      NumberPhase.exponentMark.next? char = some .exponent ∧
      NumberPhase.exponentSign.next? char = some .exponent ∧
      NumberPhase.exponent.next? char = some .exponent := by
  have noSign : char ≠ '+' ∧ char ≠ '-' := by
    constructor
    all_goals
      rintro rfl
      simp at isDigit
  simp [NumberPhase.next?, isDigit, noSign]

theorem run?_exponentPart {phase : NumberPhase} {exponent : List Char}
    (complete : phase.isComplete = true)
    (marks : phase.next? 'e' = some .exponentMark ∧ phase.next? 'E' = some .exponentMark)
    (part : ExponentPart exponent) :
    ∃ last, phase.run? exponent = some last ∧ last.isComplete = true := by
  rcases part with rfl | ⟨mark, sign, digits, isMark, isSign, digitRun, rfl⟩
  · exact ⟨phase, rfl, complete⟩
  · refine ⟨.exponent, ?_, rfl⟩
    have stays : ∀ char : Char, char.isDigit = true →
        NumberPhase.exponent.next? char = some .exponent :=
      fun _ isDigit => (next?_of_isDigit isDigit).2.2.2.2.2
    have afterSign : NumberPhase.exponentSign.run? digits = some .exponent :=
      run?_digitRun (fun _ isDigit => (next?_of_isDigit isDigit).2.2.2.2.1) stays digitRun
    have afterMark : NumberPhase.exponentMark.run? digits = some .exponent :=
      run?_digitRun (fun _ isDigit => (next?_of_isDigit isDigit).2.2.2.1) stays digitRun
    have markEq : phase.next? mark = some .exponentMark := by
      simp only [List.mem_cons, List.not_mem_nil, or_false] at isMark
      rcases isMark with rfl | rfl
      · exact marks.1
      · exact marks.2
    rw [NumberPhase.run?, List.foldlM_cons, markEq]
    simp only [List.mem_cons, List.not_mem_nil, or_false] at isSign
    rcases isSign with rfl | rfl | rfl
    · exact afterMark
    · exact afterSign
    · exact afterSign

theorem run?_fractionPart {phase : NumberPhase} {fraction exponent : List Char}
    (isWhole : phase = .zero ∨ phase = .integer) (fractionPart : FractionPart fraction)
    (exponentPart : ExponentPart exponent) :
    ∃ last, phase.run? (fraction ++ exponent) = some last ∧ last.isComplete = true := by
  rcases fractionPart with rfl | ⟨digits, digitRun, rfl⟩
  · have complete : phase.isComplete = true := by
      rcases isWhole with rfl | rfl <;> rfl
    have marks : phase.next? 'e' = some .exponentMark ∧ phase.next? 'E' = some .exponentMark := by
      rcases isWhole with rfl | rfl <;> decide
    exact run?_exponentPart complete marks exponentPart
  · have point : phase.next? '.' = some .point := by
      rcases isWhole with rfl | rfl <;> decide
    have afterPoint : NumberPhase.point.run? digits = some .fraction :=
      run?_digitRun (fun _ isDigit => (next?_of_isDigit isDigit).2.1)
        (fun _ isDigit => (next?_of_isDigit isDigit).2.2.1) digitRun
    have marks : NumberPhase.fraction.next? 'e' = some .exponentMark ∧
        NumberPhase.fraction.next? 'E' = some .exponentMark := by decide
    obtain ⟨last, runEq, complete⟩ := run?_exponentPart rfl marks exponentPart
    refine ⟨last, ?_, complete⟩
    rw [List.cons_append, NumberPhase.run?, List.foldlM_cons, point]
    change NumberPhase.point.run? (digits ++ exponent) = some last
    rw [run?_append, afterPoint]
    exact runEq

/-- The first digit of a number and the phase it leads to. -/
theorem exists_firstDigit {whole : List Char} (wholePart : WholePart whole) :
    ∃ digit digits phase, whole = digit :: digits ∧ digit.isDigit = true ∧
      NumberPhase.sign.next? digit = some phase ∧
      phase = (if digit = '0' then .zero else .integer) ∧
      phase.run? digits = some phase := by
  rcases wholePart with rfl | ⟨⟨nonempty, areDigits⟩, noZero⟩
  · exact ⟨'0', [], .zero, rfl, rfl, rfl, rfl, rfl⟩
  · cases whole with
    | nil => exact absurd rfl nonempty
    | cons digit digits =>
        have notZero : digit ≠ '0' := by
          rintro rfl
          exact noZero rfl
        have isDigit := areDigits digit List.mem_cons_self
        refine ⟨digit, digits, .integer, rfl, isDigit, ?_, (if_neg notZero).symm, ?_⟩
        · simp [NumberPhase.next?, notZero, isDigit]
        · exact run?_digits (fun _ isDigit => (next?_of_isDigit isDigit).1)
            fun char member => areDigits char (List.mem_cons_of_mem _ member)

theorem begin?_digit {digit : Char} (isDigit : digit.isDigit = true) :
    Lexing.begin? digit =
      some ([], .number (if digit = '0' then .zero else .integer) [digit]) := by
  have notBlank : ¬isBlank digit = true := by
    intro blank
    simp only [isBlank, decide_eq_true_eq] at blank
    rcases blank with rfl | rfl | rfl | rfl <;> simp at isDigit
  unfold Lexing.begin?
  rw [if_neg notBlank, if_pos isDigit]

theorem tokensFrom?_number {sign whole fraction exponent : List Char}
    (literal : NumberLiteral sign whole fraction exponent) (follows : Follows rest) :
    tokensFrom? .between found (sign ++ whole ++ fraction ++ exponent ++ rest) =
      tokensFrom? .between
        (.number (String.ofList (sign ++ whole ++ fraction ++ exponent)) :: found) rest := by
  obtain ⟨digit, digits, phase, rfl, isDigit, firstEq, phaseEq, digitsEq⟩ :=
    exists_firstDigit literal.whole
  have isWhole : phase = .zero ∨ phase = .integer := by
    rw [phaseEq]
    split
    · exact .inl rfl
    · exact .inr rfl
  obtain ⟨last, runEq, complete⟩ :=
    run?_fractionPart isWhole literal.fraction literal.exponent
  have restEq : phase.run? (digits ++ (fraction ++ exponent)) = some last := by
    rw [run?_append, digitsEq]
    exact runEq
  have signed := literal.sign
  simp only [List.mem_cons, List.not_mem_nil, or_false] at signed
  rcases signed with rfl | rfl
  · have begins : Lexing.begin? digit = some ([], .number phase [digit]) := by
      rw [begin?_digit isDigit, phaseEq]
    have split : [] ++ digit :: digits ++ fraction ++ exponent ++ rest =
        digit :: (digits ++ (fraction ++ exponent) ++ rest) := by simp
    rw [split, tokensFrom?, Lexing.step?, begins]
    dsimp only
    rw [tokensFrom?_run restEq, tokensFrom?_endNumber complete follows, numberToken]
    simp
  · have signedEq : NumberPhase.sign.run? (digit :: (digits ++ (fraction ++ exponent))) =
        some last := by
      rw [NumberPhase.run?, List.foldlM_cons, firstEq]
      exact restEq
    have split : ['-'] ++ digit :: digits ++ fraction ++ exponent ++ rest =
        '-' :: (digit :: (digits ++ (fraction ++ exponent)) ++ rest) := by simp
    have begins : Lexing.begin? '-' = some ([], .number .sign ['-']) := rfl
    rw [split, tokensFrom?, Lexing.step?, begins]
    dsimp only
    rw [tokensFrom?_run signedEq, tokensFrom?_endNumber complete follows, numberToken]
    simp

/-! ### Texts -/

theorem content?_unit {unit : Nat} (single : unit < 0xD800 ∨ 0xDFFF < unit)
    (pieces : List Piece) :
    content? (.unit unit :: pieces) = (content? pieces).map (Char.ofNat unit :: ·) := by
  have notLeading : isLeading unit = false := by
    simp only [isLeading, decide_eq_false_iff_not]
    omega
  have notTrailing : isTrailing unit = false := by
    simp only [isTrailing, decide_eq_false_iff_not]
    omega
  cases pieces with
  | nil => simp [content?, notLeading, notTrailing]
  | cons piece pieces =>
      cases piece with
      | char char => simp [content?, notLeading, notTrailing]
      | unit other => simp [content?, notLeading, notTrailing]

theorem content?_pair {leading trailing : Nat} (leads : 0xD800 ≤ leading ∧ leading ≤ 0xDBFF)
    (trails : 0xDC00 ≤ trailing ∧ trailing ≤ 0xDFFF) (pieces : List Piece) :
    content? (.unit leading :: .unit trailing :: pieces) =
      (content? pieces).map
        (Char.ofNat (0x10000 + (leading - 0xD800) * 0x400 + (trailing - 0xDC00)) :: ·) := by
  have isLeading : isLeading leading = true := by simpa [isLeading] using leads
  have isTrailing : isTrailing trailing = true := by simpa [isTrailing] using trails
  simp [content?, isLeading, isTrailing]

theorem tokensFrom?_unit {digits : List Char} {unit : Nat} (digitsEq : UnitDigits digits unit)
    (pieces : List Piece) :
    tokensFrom? (.text pieces) found ('\\' :: 'u' :: (digits ++ rest)) =
      tokensFrom? (.text (.unit unit :: pieces)) found rest := by
  cases digitsEq with
  | mk firstEq secondEq thirdEq fourthEq =>
      simp [tokensFrom?, Lexing.step?, firstEq, secondEq, thirdEq, fourthEq]

theorem tokensFrom?_short {letter char : Char} (listed : (letter, char) ∈ shortEscapes)
    (pieces : List Piece) :
    tokensFrom? (.text pieces) found ('\\' :: letter :: rest) =
      tokensFrom? (.text (.char char :: pieces)) found rest := by
  have notUnit : letter ≠ 'u' := by
    rintro rfl
    simp [shortEscapes] at listed
  have stands : escaped? letter = some char := by
    simp only [shortEscapes, List.mem_cons, Prod.mk.injEq, List.not_mem_nil, or_false] at listed
    rcases listed with ⟨rfl, rfl⟩ | ⟨rfl, rfl⟩ | ⟨rfl, rfl⟩ | ⟨rfl, rfl⟩ | ⟨rfl, rfl⟩ |
      ⟨rfl, rfl⟩ | ⟨rfl, rfl⟩ | ⟨rfl, rfl⟩ <;> rfl
  simp [tokensFrom?, Lexing.step?, notUnit, stands]

/-- The reader goes through the body of a text and keeps its pieces. -/
theorem exists_pieces {content body : List Char} (spelled : TextBody content body) :
    ∃ pieces, content? pieces = some content ∧
      ∀ earlier found rest, tokensFrom? (.text earlier) found (body ++ rest) =
        tokensFrom? (.text (pieces.reverse ++ earlier)) found rest := by
  induction spelled with
  | nil => exact ⟨[], rfl, fun _ _ _ => rfl⟩
  | @plain char content body notQuote notBackslash notControl _ ih =>
      obtain ⟨pieces, contentEq, tokensEq⟩ := ih
      refine ⟨.char char :: pieces, by simp [content?, contentEq], ?_⟩
      intro earlier found rest
      have steps : Lexing.step? (.text earlier) char =
          some ([], .text (.char char :: earlier)) := by
        simp [Lexing.step?, notQuote, notBackslash, Nat.not_lt.mpr notControl]
      rw [List.cons_append, tokensFrom?, steps]
      simpa using tokensEq (.char char :: earlier) found rest
  | @short letter char content body listed _ ih =>
      obtain ⟨pieces, contentEq, tokensEq⟩ := ih
      refine ⟨.char char :: pieces, by simp [content?, contentEq], ?_⟩
      intro earlier found rest
      rw [List.cons_append, List.cons_append, tokensFrom?_short listed, tokensEq]
      simp
  | @unit digits content body unit digitsEq single _ ih =>
      obtain ⟨pieces, contentEq, tokensEq⟩ := ih
      refine ⟨.unit unit :: pieces, by simp [content?_unit single, contentEq], ?_⟩
      intro earlier found rest
      rw [List.cons_append, List.cons_append, List.append_assoc, tokensFrom?_unit digitsEq,
        tokensEq]
      simp
  | @pair leadingDigits trailingDigits content body leading trailing leadingEq trailingEq leads
      trails _ ih =>
      obtain ⟨pieces, contentEq, tokensEq⟩ := ih
      refine ⟨.unit leading :: .unit trailing :: pieces,
        by simp [content?_pair leads trails, contentEq], ?_⟩
      intro earlier found rest
      simp only [List.cons_append, List.append_assoc]
      rw [tokensFrom?_unit leadingEq, tokensFrom?_unit trailingEq, tokensEq]
      simp

theorem tokensFrom?_text {content body : List Char} (spelled : TextBody content body) :
    tokensFrom? .between found ('"' :: (body ++ '"' :: rest)) =
      tokensFrom? .between (.text (some (String.ofList content)) :: found) rest := by
  obtain ⟨pieces, contentEq, tokensEq⟩ := exists_pieces spelled
  have begins : Lexing.begin? '"' = some ([], .text []) := rfl
  rw [tokensFrom?, Lexing.step?, begins]
  dsimp only
  rw [tokensEq, tokensFrom?, Lexing.step?, if_pos rfl]
  simp [textToken, contentEq]

/-! ### Marks and words -/

theorem tokensFrom?_mark {mark : Char} {token : Token}
    (begins : Lexing.begin? mark = some ([token], .between)) :
    tokensFrom? .between found (mark :: rest) = tokensFrom? .between (token :: found) rest := by
  rw [tokensFrom?, Lexing.step?, begins]
  rfl

end Tokens

/-! ## Reading phrases -/

/-- The tokens of a phrase lead the reader of values to what the phrase stands for,
where such a phrase may come next. -/
def BuiltBy (tokens : List Token) : Phrase → Prop
  | .value value | .padded value =>
      ∀ (expectation : Expectation) frames,
        expectation = .value ∨ expectation = .valueOrEnd →
        tokens.foldlM Building.step? ⟨expectation, frames⟩ = Building.deliver value frames
  | .items items =>
      ∀ (expectation : Expectation) earlier frames,
        expectation = .value ∨ expectation = .valueOrEnd →
        tokens.foldlM Building.step? ⟨expectation, .array earlier :: frames⟩ =
          some ⟨.separator, .array (items.reverse ++ earlier) :: frames⟩
  | .member name value =>
      ∀ (expectation : Expectation) earlier frames,
        expectation = .name ∨ expectation = .nameOrEnd →
        tokens.foldlM Building.step? ⟨expectation, .object earlier :: frames⟩ =
          some ⟨.separator, .object ((some name, value) :: earlier) :: frames⟩
  | .members members =>
      ∀ (expectation : Expectation) earlier frames,
        expectation = .name ∨ expectation = .nameOrEnd →
        tokens.foldlM Building.step? ⟨expectation, .object earlier :: frames⟩ =
          some ⟨.separator, .object (members.reverse ++ earlier) :: frames⟩

/-- The reader takes characters as a phrase: it finds tokens in them, whatever comes
before and after, and the tokens build what the phrase stands for. -/
def Reads (phrase : Phrase) (chars : List Char) : Prop :=
  ∃ tokens, BuiltBy tokens phrase ∧
    ∀ found rest, Follows rest →
      tokensFrom? .between found (chars ++ rest) =
        tokensFrom? .between (tokens.reverse ++ found) rest

theorem follows_cons {char : Char} (listed : char ∈ [' ', '\t', '\n', '\r', ',', ']', '\x7d'])
    (rest : List Char) : Follows (char :: rest) := by
  rintro _ ⟨⟩
  exact listed

theorem follows_blank {blank rest : List Char} (isBlank : Blank blank) (follows : Follows rest) :
    Follows (blank ++ rest) := by
  cases blank with
  | nil => exact follows
  | cons char blank =>
      have listed := isBlank char List.mem_cons_self
      exact follows_cons (List.mem_append_left [',', ']', '\x7d'] listed) (blank ++ rest)

theorem reads_token (token : Token) {value : Value} {chars : List Char}
    (notEnd : token ≠ .closeArray)
    (begins : ∀ frames, Building.begin? frames token = Building.deliver value frames)
    (tokensEq : ∀ found rest, Follows rest →
      tokensFrom? .between found (chars ++ rest) = tokensFrom? .between (token :: found) rest) :
    Reads (.value value) chars := by
  refine ⟨[token], ?_, tokensEq⟩
  intro expectation frames
  rintro (rfl | rfl)
  · simp [Building.step?, begins]
  · simp [Building.step?, begins, notEnd]

/-- Brackets around items or blank space, which the reader takes up to the closing
bracket. -/
theorem reads_enclosed {openMark closeMark : Char} {openToken closeToken : Token}
    {value : Value} {chars : List Char} (inner : List Token)
    (opens : Lexing.begin? openMark = some ([openToken], .between))
    (closes : Lexing.begin? closeMark = some ([closeToken], .between))
    (follows : closeMark ∈ [' ', '\t', '\n', '\r', ',', ']', '\x7d'])
    (built : BuiltBy (openToken :: (inner ++ [closeToken])) (.value value))
    (tokensEq : ∀ found rest, Follows rest →
      tokensFrom? .between found (chars ++ rest) =
        tokensFrom? .between (inner.reverse ++ found) rest) :
    Reads (.value value) (openMark :: (chars ++ [closeMark])) := by
  refine ⟨openToken :: (inner ++ [closeToken]), built, ?_⟩
  intro found rest _
  have split : openMark :: (chars ++ [closeMark]) ++ rest =
      openMark :: (chars ++ closeMark :: rest) := by simp
  rw [split, tokensFrom?_mark opens, tokensEq _ _ (follows_cons follows rest),
    tokensFrom?_mark closes]
  simp

theorem step?_openArray {expectation : Expectation}
    (expected : expectation = .value ∨ expectation = .valueOrEnd) (frames : List Frame) :
    Building.step? ⟨expectation, frames⟩ .openArray =
      some ⟨.valueOrEnd, .array [] :: frames⟩ := by
  rcases expected with rfl | rfl <;> rfl

theorem step?_openObject {expectation : Expectation}
    (expected : expectation = .value ∨ expectation = .valueOrEnd) (frames : List Frame) :
    Building.step? ⟨expectation, frames⟩ .openObject =
      some ⟨.nameOrEnd, .object [] :: frames⟩ := by
  rcases expected with rfl | rfl <;> rfl

theorem reads_array {items : List Value} {chars : List Char} (reads : Reads (.items items) chars) :
    Reads (.value (.array items)) ('[' :: (chars ++ [']'])) := by
  obtain ⟨tokens, built, tokensEq⟩ := reads
  refine reads_enclosed tokens rfl rfl (by decide) ?_ tokensEq
  intro expectation frames expected
  rw [List.foldlM_cons, step?_openArray expected, Option.bind_eq_bind, Option.bind_some,
    List.foldlM_append, built .valueOrEnd [] frames (.inr rfl)]
  simp [Building.step?, Building.close?]

theorem reads_emptyArray {chars : List Char} (blank : Blank chars) :
    Reads (.value (.array [])) ('[' :: (chars ++ [']'])) := by
  refine reads_enclosed [] rfl rfl (by decide) ?_ fun _ _ _ => tokensFrom?_blank blank
  intro expectation frames expected
  rw [List.foldlM_cons, step?_openArray expected]
  simp [Building.step?, Building.close?]

theorem reads_object {members : List (Option String × Value)} {chars : List Char}
    (reads : Reads (.members members) chars) :
    Reads (.value (.object members)) ('\x7b' :: (chars ++ ['\x7d'])) := by
  obtain ⟨tokens, built, tokensEq⟩ := reads
  refine reads_enclosed tokens rfl rfl (by decide) ?_ tokensEq
  intro expectation frames expected
  rw [List.foldlM_cons, step?_openObject expected, Option.bind_eq_bind, Option.bind_some,
    List.foldlM_append, built .nameOrEnd [] frames (.inr rfl)]
  simp [Building.step?, Building.close?]

theorem reads_emptyObject {chars : List Char} (blank : Blank chars) :
    Reads (.value (.object [])) ('\x7b' :: (chars ++ ['\x7d'])) := by
  refine reads_enclosed [] rfl rfl (by decide) ?_ fun _ _ _ => tokensFrom?_blank blank
  intro expectation frames expected
  rw [List.foldlM_cons, step?_openObject expected]
  simp [Building.step?, Building.close?]

theorem reads_padded {value : Value} {before chars after : List Char} (blankBefore : Blank before)
    (reads : Reads (.value value) chars) (blankAfter : Blank after) :
    Reads (.padded value) (before ++ (chars ++ after)) := by
  obtain ⟨tokens, built, tokensEq⟩ := reads
  refine ⟨tokens, built, ?_⟩
  intro found rest follows
  rw [List.append_assoc, List.append_assoc, tokensFrom?_blank blankBefore,
    tokensEq _ _ (follows_blank blankAfter follows), tokensFrom?_blank blankAfter]

theorem reads_lastItem {value : Value} {chars : List Char} (reads : Reads (.padded value) chars) :
    Reads (.items [value]) chars := by
  obtain ⟨tokens, built, tokensEq⟩ := reads
  refine ⟨tokens, ?_, tokensEq⟩
  intro expectation earlier frames expected
  exact built expectation (.array earlier :: frames) expected

/-- Two phrases with a comma between them. -/
theorem tokensFrom?_comma {chars rest others : List Char} {tokens otherTokens : List Token}
    (tokensEq : ∀ found rest, Follows rest → tokensFrom? .between found (chars ++ rest) =
      tokensFrom? .between (tokens.reverse ++ found) rest)
    (othersEq : ∀ found rest, Follows rest → tokensFrom? .between found (others ++ rest) =
      tokensFrom? .between (otherTokens.reverse ++ found) rest)
    (found : List Token) (follows : Follows rest) :
    tokensFrom? .between found (chars ++ ',' :: others ++ rest) =
      tokensFrom? .between ((tokens ++ .comma :: otherTokens).reverse ++ found) rest := by
  have comma : Lexing.begin? ',' = some ([.comma], .between) := rfl
  rw [List.append_assoc, List.cons_append, tokensEq _ _ (follows_cons (by decide) _),
    tokensFrom?_mark comma, othersEq _ _ follows]
  simp

theorem reads_item {value : Value} {items : List Value} {chars rest : List Char}
    (reads : Reads (.padded value) chars) (readsOthers : Reads (.items items) rest) :
    Reads (.items (value :: items)) (chars ++ ',' :: rest) := by
  obtain ⟨tokens, built, tokensEq⟩ := reads
  obtain ⟨otherTokens, othersBuilt, othersEq⟩ := readsOthers
  refine ⟨tokens ++ .comma :: otherTokens, ?_,
    fun found _ follows => tokensFrom?_comma tokensEq othersEq found follows⟩
  intro expectation earlier frames expected
  have comma : Building.step? ⟨.separator, .array (value :: earlier) :: frames⟩ .comma =
      some ⟨.value, .array (value :: earlier) :: frames⟩ := rfl
  rw [List.foldlM_append, built expectation (.array earlier :: frames) expected]
  simp only [Building.deliver, Option.bind_eq_bind, Option.bind_some, List.foldlM_cons, comma]
  rw [othersBuilt .value (value :: earlier) frames (.inl rfl)]
  simp

theorem reads_member {content before body gap chars : List Char} {value : Value}
    (blankBefore : Blank before) (spelled : TextBody content body) (blankGap : Blank gap)
    (reads : Reads (.padded value) chars) :
    Reads (.member (String.ofList content) value)
      (before ++ '"' :: (body ++ '"' :: (gap ++ ':' :: chars))) := by
  obtain ⟨tokens, built, tokensEq⟩ := reads
  refine ⟨.text (some (String.ofList content)) :: .colon :: tokens, ?_, ?_⟩
  · intro expectation earlier frames expected
    have named : Building.step? ⟨expectation, .object earlier :: frames⟩
        (.text (some (String.ofList content))) =
          some ⟨.colon, .member earlier (some (String.ofList content)) :: frames⟩ := by
      rcases expected with rfl | rfl <;> rfl
    have colon : Building.step?
        ⟨.colon, .member earlier (some (String.ofList content)) :: frames⟩ .colon =
          some ⟨.value, .member earlier (some (String.ofList content)) :: frames⟩ := rfl
    simp only [List.foldlM_cons, named, colon, Option.bind_eq_bind, Option.bind_some]
    rw [built .value _ (.inl rfl)]
    rfl
  · intro found rest follows
    have colon : Lexing.begin? ':' = some ([.colon], .between) := rfl
    have split : before ++ '"' :: (body ++ '"' :: (gap ++ ':' :: chars)) ++ rest =
        before ++ '"' :: (body ++ '"' :: (gap ++ ':' :: (chars ++ rest))) := by simp
    rw [split, tokensFrom?_blank blankBefore, tokensFrom?_text spelled,
      tokensFrom?_blank blankGap, tokensFrom?_mark colon, tokensEq _ _ follows]
    simp

theorem reads_lastMember {name : String} {value : Value} {chars : List Char}
    (reads : Reads (.member name value) chars) :
    Reads (.members [(some name, value)]) chars := by
  obtain ⟨tokens, built, tokensEq⟩ := reads
  exact ⟨tokens, built, tokensEq⟩

theorem reads_members {name : String} {value : Value} {members : List (Option String × Value)}
    {chars rest : List Char} (reads : Reads (.member name value) chars)
    (readsOthers : Reads (.members members) rest) :
    Reads (.members ((some name, value) :: members)) (chars ++ ',' :: rest) := by
  obtain ⟨tokens, built, tokensEq⟩ := reads
  obtain ⟨otherTokens, othersBuilt, othersEq⟩ := readsOthers
  refine ⟨tokens ++ .comma :: otherTokens, ?_,
    fun found _ follows => tokensFrom?_comma tokensEq othersEq found follows⟩
  intro expectation earlier frames expected
  have comma : Building.step? ⟨.separator, .object ((some name, value) :: earlier) :: frames⟩
      .comma = some ⟨.name, .object ((some name, value) :: earlier) :: frames⟩ := rfl
  rw [List.foldlM_append, built expectation earlier frames expected]
  simp only [Option.bind_eq_bind, Option.bind_some, List.foldlM_cons, comma]
  rw [othersBuilt .name ((some name, value) :: earlier) frames (.inl rfl)]
  simp

/-- Every phrase is read as what it stands for. -/
theorem Written.reads {phrase : Phrase} {chars : List Char} (written : Written phrase chars) :
    Reads phrase chars := by
  induction written with
  | null => exact reads_token .null (by simp) (fun _ => rfl) fun _ _ _ => rfl
  | true => exact reads_token (.boolean Bool.true) (by simp) (fun _ => rfl) fun _ _ _ => rfl
  | false => exact reads_token (.boolean Bool.false) (by simp) (fun _ => rfl) fun _ _ _ => rfl
  | number literal =>
      exact reads_token (.number _) (by simp) (fun _ => rfl) fun _ _ follows =>
        tokensFrom?_number literal follows
  | text spelled =>
      apply reads_token (.text (some _)) (by simp) (fun _ => rfl)
      intro found rest _
      rw [List.cons_append, List.append_assoc]
      exact tokensFrom?_text spelled
  | emptyArray blank => exact reads_emptyArray blank
  | array _ ih => exact reads_array ih
  | emptyObject blank => exact reads_emptyObject blank
  | object _ ih => exact reads_object ih
  | padded blankBefore _ blankAfter ih => exact reads_padded blankBefore ih blankAfter
  | lastItem _ ih => exact reads_lastItem ih
  | item _ _ ih ihOthers => exact reads_item ih ihOthers
  | member blankBefore spelled blankGap _ ih =>
      exact reads_member blankBefore spelled blankGap ih
  | lastMember _ ih => exact reads_lastMember ih
  | members _ _ ih ihOthers => exact reads_members ih ihOthers

/-- The reader accepts every JSON document and finds its value. -/
theorem Denotes.parse?_eq {text : String} {value : Value} (denotes : Denotes text value) :
    parse? text = some value := by
  obtain ⟨tokens, built, tokensEq⟩ := denotes.reads
  have follows : Follows [] := nofun
  have allTokens : tokens? text = some tokens := by
    have tokensAll := tokensEq [] [] follows
    rw [List.append_nil, List.append_nil] at tokensAll
    rw [tokens?, tokensAll]
    simp [tokensFrom?, Lexing.finish?]
  have builtAll : tokens.foldlM Building.step? ⟨.value, []⟩ = some ⟨.nothing value, []⟩ :=
    built .value [] (.inl rfl)
  rw [parse?, allTokens, Option.bind_some, ofTokens?, builtAll]

theorem Denotes.unique {text : String} {first second : Value} (denotesFirst : Denotes text first)
    (denotesSecond : Denotes text second) : first = second := by
  have same := denotesFirst.parse?_eq.symm.trans denotesSecond.parse?_eq
  exact Option.some.inj same

end Json

end ClassLint
