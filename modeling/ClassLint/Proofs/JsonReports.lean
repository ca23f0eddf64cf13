import Mathlib.Data.List.Induction
import ClassLint.Proofs.JsonGrammar
import ClassLint.Proofs.RunAccounting

/-!
# The JSON report is lossless

The report that is written for a course of calls is a JSON document, and its value
holds what was reported: quoting loses nothing, whatever characters a text has, and
each finding stands under the file that was open when it was reported.
-/

namespace ClassLint

namespace JsonReport

open Json

/-! ## Texts and numbers -/

theorem unitDigits_control {char : Char} (control : char.toNat < 0x20) :
    UnitDigits ['0', '0', Nat.digitChar (char.toNat / 16), Nat.digitChar (char.toNat % 16)]
      char.toNat := by
  have highEq : ∀ digit < 2, Digits.value? (Nat.digitChar digit) = some digit := by decide
  have lowEq : ∀ digit < 16, Digits.value? (Nat.digitChar digit) = some digit := by decide
  have zeroEq : Digits.value? '0' = some 0 := rfl
  have digits := UnitDigits.mk zeroEq zeroEq (highEq (char.toNat / 16) (by omega))
    (lowEq (char.toNat % 16) (by omega))
  have unitEq : ((0 * 16 + 0) * 16 + char.toNat / 16) * 16 + char.toNat % 16 = char.toNat := by
    omega
  rwa [unitEq] at digits

theorem textBody_escape {char : Char} {content body : List Char} (rest : TextBody content body) :
    TextBody (char :: content) (escape char ++ body) := by
  have short (letter : Char) (listed : (letter, char) ∈ shortEscapes) :
      TextBody (char :: content) (['\\', letter] ++ body) := .short listed rest
  unfold escape
  split
  · next isQuote => exact short '"' (by rw [isQuote]; decide)
  · split
    · next isBackslash => exact short '\\' (by rw [isBackslash]; decide)
    · split
      · next isBackspace => exact short 'b' (by rw [isBackspace]; decide)
      · split
        · next isFormFeed => exact short 'f' (by rw [isFormFeed]; decide)
        · split
          · next isLineFeed => exact short 'n' (by rw [isLineFeed]; decide)
          · split
            · next isReturn => exact short 'r' (by rw [isReturn]; decide)
            · split
              · next isTab => exact short 't' (by rw [isTab]; decide)
              · split
                · next control =>
                  have spelled := TextBody.unit (unitDigits_control control) (.inl (by omega)) rest
                  rwa [Char.ofNat_toNat] at spelled
                · next notQuote notBackslash _ _ _ _ _ notControl =>
                  exact .plain notQuote notBackslash (Nat.not_lt.mp notControl) rest

theorem textBody_flatMap_escape (content : List Char) :
    TextBody content (content.flatMap escape) := by
  induction content with
  | nil => exact .nil
  | cons char content ih => exact textBody_escape ih

theorem written_quote (text : String) :
    Written (.value (.text (some text))) (quote text).toList := by
  have written := Written.text (textBody_flatMap_escape text.toList)
  rwa [String.ofList_toList, ← String.toList_ofList (l := _ :: _)] at written

theorem toDigits_ten_induction {motive : Nat → List Char → Prop}
    (single : ∀ digit < 10, motive digit [Nat.digitChar digit])
    (snoc : ∀ number digit, 0 < number → digit < 10 → motive number (Nat.toDigits 10 number) →
      motive (number * 10 + digit) (Nat.toDigits 10 number ++ [Nat.digitChar digit]))
    (number : Nat) : motive number (Nat.toDigits 10 number) := by
  induction number using Nat.strongRecOn with
  | ind number ih =>
      by_cases small : number < 10
      · rw [Nat.toDigits_of_lt_base small]
        exact single number small
      · have shorter := ih (number / 10) (by omega)
        have longer := snoc (number / 10) (number % 10) (by omega) (by omega) shorter
        rw [Nat.toDigits_of_base_le (by omega) (by omega)]
        rwa [Nat.div_add_mod'] at longer

theorem head?_toDigits_ne (number : Nat) (positive : 0 < number) :
    (Nat.toDigits 10 number).head? ≠ some '0' := by
  revert positive
  induction number using toDigits_ten_induction with
  | single digit small => revert digit; decide
  | snoc number digit positive _ ih =>
      intro _
      rw [List.head?_append_of_ne_nil _ Nat.toDigits_ne_nil]
      exact ih positive

theorem wholePart_toDigits (number : Nat) : WholePart (Nat.toDigits 10 number) := by
  by_cases zero : number = 0
  · subst zero
    exact .inl rfl
  · have areDigits : ∀ char ∈ Nat.toDigits 10 number, char.isDigit = true :=
      fun _ member => Nat.isDigit_of_mem_toDigits (by decide) (by decide) member
    have noZero := head?_toDigits_ne number (Nat.pos_of_ne_zero zero)
    exact .inr ⟨⟨Nat.toDigits_ne_nil, areDigits⟩, noZero⟩

theorem written_number (number : Nat) :
    Written (.value (.number (toString number))) (toString number).toList := by
  have literal : NumberLiteral [] (Nat.toDigits 10 number) [] [] :=
    ⟨by decide, wholePart_toDigits number, .inl rfl, .inl rfl⟩
  have written := Written.number literal
  have charsEq : (toString number).toList = Nat.toDigits 10 number := Nat.toList_repr
  simp only [List.nil_append, List.append_nil, ← charsEq, String.ofList_toList] at written
  exact written

theorem number_toDigits (number : Nat) :
    Digits.number 10 (Nat.toDigits 10 number) = number := by
  have digitEq : ∀ digit < 10, Digits.value? (Nat.digitChar digit) = some digit := by decide
  induction number using toDigits_ten_induction with
  | single digit small => simp [Digits.number, digitEq digit small]
  | snoc number digit _ small ih =>
      rw [Digits.number, List.foldl_append]
      change Digits.number 10 _ * 10 + _ = _
      rw [ih, digitEq digit small, Option.getD_some]

theorem natural?_number (number : Nat) :
    view.natural? (.number (toString number)) = some number := by
  have isDigit : ∀ digit < 10, Digits.isDigit 10 (Nat.digitChar digit) = true := by decide
  have areDigits : (Nat.toDigits 10 number).all (Digits.isDigit 10) = true := by
    induction number using toDigits_ten_induction with
    | single digit small => simp [isDigit digit small]
    | snoc number digit _ small ih => simp [ih, isDigit digit small]
  have charsEq : (toString number).toList = Nat.toDigits 10 number := Nat.toList_repr
  change Digits.number? 10 (toString number).toList = some number
  rw [charsEq, Digits.number?, if_pos ⟨Nat.toDigits_ne_nil, areDigits⟩, number_toDigits]

/-! ## Objects and arrays -/

/-- A member of an object, with the text that its value is written as. -/
structure Member where
  name : String
  value : Value
  text : String
  written : Written (.value value) text.toList

def Member.ofText (name content : String) : Member :=
  ⟨name, .text (some content), quote content, written_quote content⟩

def Member.ofNumber (name : String) (number : Nat) : Member :=
  ⟨name, .number (toString number), toString number, written_number number⟩

theorem blank_nil : Blank [] :=
  nofun

theorem Member.written_line (member : Member) {indent : String} {after : List Char}
    (blankIndent : Blank indent.toList) (blankAfter : Blank after) :
    Written (.member member.name member.value)
      ((memberLine indent member.name member.text).toList ++ after) := by
  have blankBefore : Blank ('\n' :: indent.toList) := by
    intro char listed
    rcases List.mem_cons.mp listed with rfl | listed
    · decide
    · exact blankIndent char listed
  have padded : Written (.padded member.value) ([' '] ++ (member.text.toList ++ after)) :=
    .padded (by decide) member.written blankAfter
  have spelled := Written.member blankBefore (textBody_flatMap_escape member.name.toList)
    blank_nil padded
  rw [String.ofList_toList] at spelled
  simpa [memberLine, quote] using spelled

theorem written_members (members : List Member) (nonempty : members ≠ []) {indent : String}
    {after : List Char} (blankIndent : Blank indent.toList) (blankAfter : Blank after) :
    Written (.members (members.map fun member => (some member.name, member.value)))
      ((",".intercalate (members.map fun member =>
        memberLine indent member.name member.text)).toList ++ after) := by
  induction members with
  | nil => exact absurd rfl nonempty
  | cons member members ih =>
      cases members with
      | nil =>
          have line := member.written_line blankIndent blankAfter
          simpa [String.toList_intercalate] using Written.lastMember line
      | cons next members =>
          have line := member.written_line blankIndent blank_nil
          have lines := Written.members line (ih (List.cons_ne_nil next members))
          simpa [String.toList_intercalate, List.intercalate_cons_cons] using lines

/-- An object with a member on each line. -/
theorem written_object (members : List Member) (nonempty : members ≠ []) {indent closing : String}
    {after : List Char} (blankIndent : Blank indent.toList) (blankAfter : Blank after)
    (closingEq : closing.toList = after ++ ['\x7d']) :
    Written (.value (.object (members.map fun member => (some member.name, member.value))))
      ("\x7b" ++ ",".intercalate (members.map fun member =>
        memberLine indent member.name member.text) ++ closing).toList := by
  have lines := Written.object (written_members members nonempty blankIndent blankAfter)
  simpa [closingEq] using lines

/-- The issue that a finding is written as. -/
def issue (file : String) (diagnostic : Diagnostic) : Value :=
  .object
    [(some "file", .text (some file)), (some "check", .text (some diagnostic.check)),
      (some "class", .text (some diagnostic.className)),
      (some "message", .text (some diagnostic.message))]

def Finding.issue (finding : Finding) : Value :=
  JsonReport.issue finding.file finding.diagnostic

theorem written_findingObject (finding : Finding) :
    Written (.value finding.issue) (findingObject finding).toList := by
  have object := written_object
    [.ofText "file" finding.file, .ofText "check" finding.diagnostic.check,
      .ofText "class" finding.diagnostic.className, .ofText "message" finding.diagnostic.message]
    (List.cons_ne_nil _ _) (by decide : Blank "      ".toList) (by decide : Blank "\n    ".toList)
    (by decide : "\n    \x7d".toList = "\n    ".toList ++ ['\x7d'])
  exact object

theorem written_findingItems (findings : List Finding) (nonempty : findings ≠ [])
    {after : List Char} (blankAfter : Blank after) :
    Written (.items (findings.map Finding.issue))
      ((",".intercalate (findings.map fun finding =>
        "\n    " ++ findingObject finding)).toList ++ after) := by
  have item (finding : Finding) {after : List Char} (blankAfter : Blank after) :
      Written (.padded finding.issue)
        ("\n    ".toList ++ ((findingObject finding).toList ++ after)) :=
    .padded (by decide) (written_findingObject finding) blankAfter
  induction findings with
  | nil => exact absurd rfl nonempty
  | cons finding findings ih =>
      cases findings with
      | nil => simpa [String.toList_intercalate] using Written.lastItem (item finding blankAfter)
      | cons next findings =>
          have items := Written.item (item finding blank_nil) (ih (List.cons_ne_nil next findings))
          simpa [String.toList_intercalate, List.intercalate_cons_cons] using items

theorem written_findingArray (findings : List Finding) :
    Written (.value (.array (findings.map Finding.issue))) (findingArray findings).toList := by
  unfold findingArray
  split
  · next isEmpty =>
    rw [isEmpty]
    exact .emptyArray blank_nil
  · next nonempty =>
    have blankAfter : Blank "\n  ".toList := by decide
    have items := Written.array (written_findingItems findings nonempty blankAfter)
    have closingEq : "\n  ]".toList = "\n  ".toList ++ [']'] := by decide
    simpa [closingEq] using items

/-! ## What is gathered -/

/-- The file that findings are reported for after a course of calls: the one that
started last, unless a file has ended since. -/
def openFile (calls : List ReportCall) : String :=
  match calls.reverse.find? (·.diagnostic?.isNone) with
  | some (.startFile path) => path.text
  | _ => ""

theorem gather_concat (calls : List ReportCall) (call : ReportCall) :
    gather (calls ++ [call]) = (gather calls).take call := by
  simp [gather]

theorem currentFile_gather (calls : List ReportCall) :
    ((gather calls).currentFile.map (·.text)).getD "" = openFile calls := by
  induction calls using List.reverseRecOn with
  | nil => rfl
  | append_singleton calls call ih =>
      rw [gather_concat]
      cases call with
      | startFile path | endFile path => simp [Gathered.take, openFile, ReportCall.diagnostic?]
      | report diagnostic =>
          simpa [Gathered.take, openFile, ReportCall.diagnostic?] using ih

theorem files_gather (calls : List ReportCall) :
    (gather calls).files = (ReportCall.startedPaths calls).length := by
  induction calls using List.reverseRecOn with
  | nil => rfl
  | append_singleton calls call ih =>
      rw [gather_concat]
      cases call <;>
        simp [Gathered.take, ReportCall.startedPaths, ReportCall.startedPath?] <;> exact ih

theorem length_findings_gather (calls : List ReportCall) :
    (gather calls).findings.length = (ReportCall.diagnostics calls).length := by
  induction calls using List.reverseRecOn with
  | nil => rfl
  | append_singleton calls call ih =>
      rw [gather_concat]
      cases call <;>
        simp [Gathered.take, ReportCall.diagnostics, ReportCall.diagnostic?] <;> exact ih

/-- Later calls leave the findings alone and add theirs behind them. -/
theorem findings_gather_prefix (calls others : List ReportCall) :
    (gather calls).findings.reverse <+: (gather (calls ++ others)).findings.reverse := by
  induction others using List.reverseRecOn with
  | nil => simp
  | append_singleton others call ih =>
      rw [← List.append_assoc, gather_concat]
      cases call with
      | startFile path | endFile path => exact ih
      | report diagnostic => exact ih.trans (by simp [Gathered.take])

theorem findings_gather_getElem? (before after : List ReportCall) (diagnostic : Diagnostic) :
    (gather (before ++ .report diagnostic :: after)).findings.reverse[
        (ReportCall.diagnostics before).length]? =
      some ⟨openFile before, diagnostic⟩ := by
  have stays := findings_gather_prefix (before ++ [.report diagnostic]) after
  rw [List.append_assoc, List.singleton_append] at stays
  obtain ⟨later, laterEq⟩ := stays
  have lengthEq : (gather before).findings.reverse.length =
      (ReportCall.diagnostics before).length := by
    rw [List.length_reverse, length_findings_gather]
  rw [← laterEq, gather_concat]
  simp only [Gathered.take, currentFile_gather, List.reverse_cons, List.append_assoc]
  rw [List.getElem?_append_right (Nat.le_of_eq lengthEq), lengthEq, Nat.sub_self]
  rfl

/-! ## The document -/

theorem written_document (calls : List ReportCall) :
    Written (.value (.object
      [(some "version", .text (some version)),
        (some "files_analyzed", .number (toString (gather calls).files)),
        (some "total_issues", .number (toString (gather calls).findings.reverse.length)),
        (some "issues", .array ((gather calls).findings.reverse.map Finding.issue))]))
      (document calls).toList := by
  have object := written_object
    [.ofText "version" version, .ofNumber "files_analyzed" (gather calls).files,
      .ofNumber "total_issues" (gather calls).findings.reverse.length,
      ⟨"issues", _, _, written_findingArray (gather calls).findings.reverse⟩]
    (List.cons_ne_nil _ _) (by decide : Blank "  ".toList) (by decide : Blank "\n".toList)
    (by decide : "\n\x7d".toList = "\n".toList ++ ['\x7d'])
  exact object

/-- The report is a JSON document, as it is written to a file and with the line end
that is printed behind it, and its value accounts for every call: it counts the files
that started and the findings, and lists the findings in order, each with its check,
class and message and with the file that was open when it was reported. -/
theorem document_lossless (calls : List ReportCall) :
    ∃ (files total : Value) (issues : List Value),
      (∀ ending ∈ ["", "\n"], ∀ value, Denotes (document calls ++ ending) value ↔
        value = .object
          [(some "version", .text (some version)), (some "files_analyzed", files),
            (some "total_issues", total), (some "issues", .array issues)]) ∧
      view.natural? files = some (ReportCall.startedPaths calls).length ∧
      view.natural? total = some (ReportCall.diagnostics calls).length ∧
      issues.length = (ReportCall.diagnostics calls).length ∧
      ∀ before diagnostic after, calls = before ++ .report diagnostic :: after →
        issues[(ReportCall.diagnostics before).length]? =
          some (issue (openFile before) diagnostic) := by
  refine ⟨_, _, (gather calls).findings.reverse.map Finding.issue, ?_,
    (natural?_number (gather calls).files).trans (congrArg some (files_gather calls)),
    (natural?_number (gather calls).findings.reverse.length).trans (congrArg some ?_), ?_, ?_⟩
  · intro ending listed value
    have blankAfter : Blank ending.toList := by
      simp only [List.mem_cons, List.not_mem_nil, or_false] at listed
      rcases listed with rfl | rfl <;> decide
    have written := Written.padded blank_nil (written_document calls) blankAfter
    rw [List.nil_append, ← String.toList_append] at written
    constructor
    · intro denotes
      exact denotes.unique written
    · rintro rfl
      exact written
  · rw [List.length_reverse, length_findings_gather]
  · rw [List.length_map, List.length_reverse, length_findings_gather]
  · rintro before diagnostic after rfl
    rw [List.getElem?_map, findings_gather_getElem?]
    rfl

end JsonReport

end ClassLint
