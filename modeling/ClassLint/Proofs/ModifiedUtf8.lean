import ClassLint.Text.Utf8
import Mathlib.Data.List.Basic
import Mathlib.Data.Nat.Init

/-!
# Code units read as UTF-8

A text of a class file is a list of code units of 16 bits.  Each unit is written
on its own: zero takes two bytes, and each half of a surrogate pair three.  The
decoder reads these bytes as UTF-8, which knows neither form, so this file says
what becomes of each unit and which texts decoding can then tell apart.
-/

namespace ClassLint

namespace Utf8

/-- The written form of a code unit. -/
def unitBytes (unit : UInt16) : List UInt8 :=
  let code := unit.toNat
  if 0 < code ∧ code < 0x80 then [.ofNat code]
  else if code < 0x800 then [.ofNat (0xC0 + code / 64), .ofNat (0x80 + code % 64)]
  else
    [.ofNat (0xE0 + code / 4096), .ofNat (0x80 + code / 64 % 64), .ofNat (0x80 + code % 64)]

/-- The written form of a text. -/
def modifiedUtf8 (units : List UInt16) : List UInt8 :=
  units.flatMap unitBytes

/-- Half of a surrogate pair. -/
def IsSurrogate (unit : UInt16) : Prop :=
  0xD800 ≤ unit.toNat ∧ unit.toNat ≤ 0xDFFF

instance : DecidablePred IsSurrogate := fun unit =>
  inferInstanceAs (Decidable (0xD800 ≤ unit.toNat ∧ unit.toNat ≤ 0xDFFF))

/-- The unit is a character by itself, and not the one that is written in a form of
its own. -/
def IsPlain (unit : UInt16) : Prop :=
  unit ≠ 0 ∧ ¬IsSurrogate unit

instance : DecidablePred IsPlain := fun unit =>
  inferInstanceAs (Decidable (unit ≠ 0 ∧ ¬IsSurrogate unit))

/-- What is read for a code unit: no piece of zero or of a surrogate is well-formed. -/
def unitPieces (unit : UInt16) : List Piece :=
  if unit = 0 then [none, none]
  else if IsSurrogate unit then [none, none, none]
  else [some (Char.ofNat unit.toNat)]

/-- The characters kept for a code unit. -/
def keptChars (unit : UInt16) : List Char :=
  (unitPieces unit).map (·.getD replacement)

/-- Two texts of which the same characters are kept. -/
def Alike (first second : List UInt16) : Prop :=
  first.flatMap keptChars = second.flatMap keptChars

/-- The machine gets from one place to another over the bytes and finds the pieces. -/
def Reads (pending : Pending) (bytes : List UInt8) (found : List Piece) (next : Pending) : Prop :=
  ∀ earlier rest,
    piecesFrom pending earlier (bytes ++ rest) = piecesFrom next (found.reverse ++ earlier) rest

theorem reads_nil (pending : Pending) : Reads pending [] [] pending := by
  intro earlier rest
  rfl

theorem Reads.append {pending middle next : Pending} {first second : List UInt8}
    {firstFound secondFound : List Piece} (readsFirst : Reads pending first firstFound middle)
    (readsSecond : Reads middle second secondFound next) :
    Reads pending (first ++ second) (firstFound ++ secondFound) next := by
  intro earlier rest
  rw [List.append_assoc, readsFirst, readsSecond, List.reverse_append, List.append_assoc]

theorem Reads.step {pending middle next : Pending} {byte : UInt8} {bytes : List UInt8}
    {firstFound found : List Piece} (stepEq : step pending byte = (firstFound, middle))
    (reads : Reads middle bytes found next) :
    Reads pending (byte :: bytes) (firstFound ++ found) next := by
  intro earlier rest
  rw [List.cons_append, piecesFrom, stepEq]
  dsimp only
  rw [reads, List.reverse_append, List.append_assoc]

theorem Reads.pieces_eq {bytes : List UInt8} {found : List Piece}
    (reads : Reads .idle bytes found .idle) : pieces bytes = found := by
  have readsAll := reads [] []
  rwa [List.append_nil, List.append_nil, piecesFrom, List.reverse_reverse, finish,
    List.append_nil] at readsAll

section Bytes

theorem step_ascii : ∀ code < 0x80,
    step .idle (.ofNat code) = ([some (Char.ofNat code)], .idle) := by
  decide +kernel

theorem step_leadOfTwo : ∀ lead < 32, 2 ≤ lead →
    step .idle (.ofNat (0xC0 + lead)) = ([], .inside 0 0x80 0xBF lead) := by
  decide +kernel

theorem step_leadOfThree : ∀ lead < 16,
    step .idle (.ofNat (0xE0 + lead)) =
      ([], .inside 1 (if lead = 0 then 0xA0 else 0x80) (if lead = 13 then 0x9F else 0xBF) lead) := by
  decide +kernel

theorem step_strayTrail : ∀ tail < 64,
    step .idle (.ofNat (0x80 + tail)) = ([none], .idle) := by
  decide +kernel

theorem toNat_trail {tail : Nat} (small : tail < 64) :
    (UInt8.ofNat (0x80 + tail)).toNat = 0x80 + tail := by
  rw [UInt8.toNat_ofNat']
  omega

theorem trail_inBounds {tail : Nat} {low high : UInt8} (small : tail < 64)
    (above : low.toNat ≤ 0x80 + tail) (below : 0x80 + tail ≤ high.toNat) :
    low ≤ UInt8.ofNat (0x80 + tail) ∧ UInt8.ofNat (0x80 + tail) ≤ high := by
  rw [UInt8.le_iff_toNat_le, UInt8.le_iff_toNat_le, toNat_trail small]
  exact ⟨above, below⟩

theorem step_lastTrail {tail : Nat} (small : tail < 64) (bits : Nat) :
    step (.inside 0 0x80 0xBF bits) (.ofNat (0x80 + tail)) =
      ([some (Char.ofNat (bits * 64 + tail))], .idle) := by
  have above : (0x80 : UInt8).toNat ≤ 0x80 + tail := Nat.le_add_right _ _
  have below : 0x80 + tail ≤ (0xBF : UInt8).toNat := by
    change _ ≤ 0xBF
    omega
  rw [Utf8.step, if_pos (trail_inBounds small above below), toNat_trail small,
    Nat.add_sub_cancel_left]

theorem step_innerTrail {tail : Nat} {low high : UInt8} (small : tail < 64)
    (above : low.toNat ≤ 0x80 + tail) (below : 0x80 + tail ≤ high.toNat) (bits : Nat) :
    step (.inside 1 low high bits) (.ofNat (0x80 + tail)) =
      ([], .inside 0 0x80 0xBF (bits * 64 + tail)) := by
  rw [Utf8.step, if_pos (trail_inBounds small above below), toNat_trail small,
    Nat.add_sub_cancel_left]

/-- After the first byte of a surrogate its second byte is out of bounds. -/
theorem step_surrogateTrail : ∀ tail < 64, 32 ≤ tail →
    step (.inside 1 0x80 0x9F 13) (.ofNat (0x80 + tail)) = ([none, none], .idle) := by
  decide +kernel

end Bytes

theorem reads_two {code : Nat} (above : 0x80 ≤ code) (below : code < 0x800) :
    Reads .idle [.ofNat (0xC0 + code / 64), .ofNat (0x80 + code % 64)]
      [some (Char.ofNat code)] .idle := by
  have codeEq : code / 64 * 64 + code % 64 = code := Nat.div_add_mod' code 64
  have lead := step_leadOfTwo (code / 64) (by omega) (by omega)
  have last := step_lastTrail (Nat.mod_lt code (by decide : 64 > 0)) (code / 64)
  rw [codeEq] at last
  exact Reads.step lead (Reads.step last (reads_nil .idle))

theorem reads_three {code : Nat} (above : 0x800 ≤ code) (below : code < 0x10000)
    (notSurrogate : ¬(0xD800 ≤ code ∧ code ≤ 0xDFFF)) :
    Reads .idle [.ofNat (0xE0 + code / 4096), .ofNat (0x80 + code / 64 % 64),
      .ofNat (0x80 + code % 64)] [some (Char.ofNat code)] .idle := by
  have codeEq : (code / 4096 * 64 + code / 64 % 64) * 64 + code % 64 = code := by omega
  have lead := step_leadOfThree (code / 4096) (by omega)
  -- The bounds of the second byte leave out what has a shorter form, and surrogates.
  have low_le : (if code / 4096 = 0 then 0xA0 else 0x80 : UInt8).toNat ≤ 0x80 + code / 64 % 64 := by
    split
    · change 0xA0 ≤ _
      omega
    · exact Nat.le_add_right _ _
  have le_high : 0x80 + code / 64 % 64 ≤ (if code / 4096 = 13 then 0x9F else 0xBF : UInt8).toNat := by
    split
    · change _ ≤ 0x9F
      omega
    · change _ ≤ 0xBF
      omega
  have middle := step_innerTrail (by omega) low_le le_high (code / 4096)
  have last := step_lastTrail (Nat.mod_lt code (by decide : 64 > 0))
    (code / 4096 * 64 + code / 64 % 64)
  rw [codeEq] at last
  exact Reads.step lead (Reads.step middle (Reads.step last (reads_nil .idle)))

theorem reads_surrogate {code : Nat} (above : 0xD800 ≤ code) (below : code ≤ 0xDFFF) :
    Reads .idle [.ofNat (0xE0 + code / 4096), .ofNat (0x80 + code / 64 % 64),
      .ofNat (0x80 + code % 64)] [none, none, none] .idle := by
  have leadEq : code / 4096 = 13 := by omega
  have lead := step_leadOfThree 13 (by decide)
  have middle := step_surrogateTrail (code / 64 % 64) (by omega) (by omega)
  have last := step_strayTrail (code % 64) (by omega)
  rw [leadEq]
  exact Reads.step lead (Reads.step middle (Reads.step last (reads_nil .idle)))

/-- Each unit is read on its own, whatever stands around it. -/
theorem reads_unitBytes (unit : UInt16) :
    Reads .idle (unitBytes unit) (unitPieces unit) .idle := by
  have bound := unit.toNat_lt
  by_cases isZero : unit = 0
  · subst isZero
    exact Reads.step (rfl : step .idle 0xC0 = ([none], .idle))
      (Reads.step (rfl : step .idle 0x80 = ([none], .idle)) (reads_nil .idle))
  · have positive : 0 < unit.toNat := by
      rw [Nat.pos_iff_ne_zero]
      exact fun codeEq => isZero (UInt16.toNat_inj.mp codeEq)
    rw [unitPieces, if_neg isZero]
    unfold unitBytes
    dsimp only
    by_cases isSurrogate : IsSurrogate unit
    · rw [if_pos isSurrogate]
      obtain ⟨above, below⟩ := isSurrogate
      rw [if_neg (by omega), if_neg (by omega)]
      exact reads_surrogate above below
    · rw [if_neg isSurrogate]
      split
      next one => exact Reads.step (step_ascii _ one.2) (reads_nil .idle)
      next notOne =>
        split
        next two => exact reads_two (by omega) two
        next notTwo => exact reads_three (by omega) bound isSurrogate

theorem reads_modifiedUtf8 (units : List UInt16) :
    Reads .idle (modifiedUtf8 units) (units.flatMap unitPieces) .idle := by
  induction units with
  | nil => exact reads_nil .idle
  | cons unit units ih =>
      rw [modifiedUtf8, List.flatMap_cons, List.flatMap_cons]
      exact (reads_unitBytes unit).append ih

theorem decodeLossy_modifiedUtf8 (units : List UInt16) :
    decodeLossy (modifiedUtf8 units) = String.ofList (units.flatMap keptChars) := by
  rw [decodeLossy, (reads_modifiedUtf8 units).pieces_eq, List.map_flatMap]
  rfl

theorem decodeLossy_eq_iff_alike {first second : List UInt16} :
    decodeLossy (modifiedUtf8 first) = decodeLossy (modifiedUtf8 second) ↔
      Alike first second := by
  rw [decodeLossy_modifiedUtf8, decodeLossy_modifiedUtf8, String.ofList_inj, Alike]

theorem keptChars_of_plain {unit : UInt16} (plain : IsPlain unit) :
    keptChars unit = [Char.ofNat unit.toNat] := by
  rw [keptChars, unitPieces, if_neg plain.1, if_neg plain.2]
  rfl

theorem toNat_ofNat_of_plain {unit : UInt16} (plain : IsPlain unit) :
    (Char.ofNat unit.toNat).toNat = unit.toNat := by
  have bound := unit.toNat_lt
  have outside := plain.2
  unfold IsSurrogate at outside
  have valid : unit.toNat.isValidChar := by
    unfold Nat.isValidChar
    omega
  rw [Char.ofNat, dif_pos valid]
  rfl

/-- Of plain units alone all is kept. -/
theorem Alike.eq_of_plain {first second : List UInt16} (alike : Alike first second)
    (firstPlain : ∀ unit ∈ first, IsPlain unit) (secondPlain : ∀ unit ∈ second, IsPlain unit) :
    first = second := by
  induction first generalizing second with
  | nil =>
      cases second with
      | nil => rfl
      | cons unit second =>
          rw [Alike, List.flatMap_cons, keptChars_of_plain (secondPlain unit (by simp))] at alike
          cases alike
  | cons unit first ih =>
      have plain := firstPlain unit (by simp)
      rw [Alike, List.flatMap_cons, keptChars_of_plain plain] at alike
      cases second with
      | nil => cases alike
      | cons other second =>
          have otherPlain := secondPlain other (by simp)
          rw [List.flatMap_cons, keptChars_of_plain otherPlain] at alike
          obtain ⟨charEq, alikeRest⟩ := List.cons.inj alike
          have unitEq : unit = other := by
            rw [← UInt16.toNat_inj, ← toNat_ofNat_of_plain plain, charEq,
              toNat_ofNat_of_plain otherPlain]
          have restEq := ih alikeRest (fun next member => firstPlain next (by simp [member]))
            (fun next member => secondPlain next (by simp [member]))
          rw [unitEq, restEq]

end Utf8

end ClassLint
