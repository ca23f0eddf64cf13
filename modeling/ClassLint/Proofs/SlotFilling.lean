import ClassLint.Proofs.BrokenCode
import ClassLint.Proofs.ConstantTable

/-!
# Filling the slots of a constant pool

The slots of a pool are filled in rounds, one for each entry.  This file gives one
round with an index of its own for the next slot, and shows that the rounds are what
reading a pool does.  The index keeps step with the slots that are stored, although
it moves by two over a wide entry, so each slot holds the entry that was read for
it, and errors name the slot where they happened.
-/

namespace ClassLint

namespace Reader

variable {α β : Type}

/-- A reader that can only fail for missing bytes. -/
def OnlyEnds (reader : Reader α) : Prop :=
  ∀ before error, reader before = .error error → error.IsEnd

theorem onlyEnds_pure (value : α) : (pure value : Reader α).OnlyEnds := by
  intro before error failed
  cases failed

theorem onlyEnds_bytes (count : Nat) : OnlyEnds (bytes count) := by
  intro before error failed
  rw [bytes_eq] at failed
  split at failed
  · cases failed
  · cases failed
    exact ⟨_, _, rfl⟩

theorem OnlyEnds.bind {reader : Reader α} {next : α → Reader β} (ends : reader.OnlyEnds)
    (nextEnds : ∀ found, (next found).OnlyEnds) : (reader >>= next).OnlyEnds := by
  intro before error failed
  rcases bind_eq_error_iff.mp failed with failedFirst | ⟨found, middle, _, failedNext⟩
  · exact ends before error failedFirst
  · exact nextEnds found middle error failedNext

theorem OnlyEnds.map {reader : Reader α} (ends : reader.OnlyEnds) (make : α → β) :
    (do return make (← reader) : Reader β).OnlyEnds :=
  ends.bind fun _ => onlyEnds_pure _

theorem onlyEnds_word (width : Nat) : OnlyEnds (word width) :=
  (onlyEnds_bytes width).map _

end Reader

namespace PoolEntry

/-- An entry with a tag that is known can only be cut off. -/
theorem onlyEnds_readTagged (entry : PoolEntry) (slot : Nat) :
    Reader.OnlyEnds (readTagged entry.tag slot) := by
  cases entry with
  | utf8 => exact ((Reader.onlyEnds_word 2).map _).bind fun _ => (Reader.onlyEnds_bytes _).map _
  | integer => exact (((Reader.onlyEnds_word 4).map _).map _).map _
  | float => exact ((Reader.onlyEnds_word 4).map _).map _
  | long => exact (((Reader.onlyEnds_word 8).map _).map _).map _
  | double => exact ((Reader.onlyEnds_word 8).map _).map _
  | classReference | string | methodType | moduleName | packageName =>
      exact ((Reader.onlyEnds_word 2).map _).map _
  | fieldReference | methodReference | interfaceMethodReference | nameAndType =>
      exact ((Reader.onlyEnds_word 2).map _).bind fun _ => ((Reader.onlyEnds_word 2).map _).map _
  | methodHandle | dynamicConstant | dynamicCall => exact (Reader.onlyEnds_bytes _).map _

theorem readTagged_of_unknown {tag : UInt8} (unknown : ∀ entry : PoolEntry, entry.tag ≠ tag)
    (slot : Nat) :
    (readTagged tag slot : Reader PoolEntry) = Reader.fail (.unknownConstantTag tag slot) := by
  unfold readTagged
  split
  case h_1 => exact absurd rfl (unknown (.utf8 []))
  case h_2 => exact absurd rfl (unknown (.integer 0))
  case h_3 => exact absurd rfl (unknown (.float 0))
  case h_4 => exact absurd rfl (unknown (.long 0))
  case h_5 => exact absurd rfl (unknown (.double 0))
  case h_6 => exact absurd rfl (unknown (.classReference 0))
  case h_7 => exact absurd rfl (unknown (.string 0))
  case h_8 => exact absurd rfl (unknown (.fieldReference 0 0))
  case h_9 => exact absurd rfl (unknown (.methodReference 0 0))
  case h_10 => exact absurd rfl (unknown (.interfaceMethodReference 0 0))
  case h_11 => exact absurd rfl (unknown (.nameAndType 0 0))
  case h_12 => exact absurd rfl (unknown (.methodHandle 0 0))
  case h_13 => exact absurd rfl (unknown (.methodType 0))
  case h_14 => exact absurd rfl (unknown (.dynamicConstant 0 0))
  case h_15 => exact absurd rfl (unknown (.dynamicCall 0 0))
  case h_16 => exact absurd rfl (unknown (.moduleName 0))
  case h_17 => exact absurd rfl (unknown (.packageName 0))
  case h_18 => rfl

/-- Eight bytes behind the tag of a wide entry are its payload. -/
theorem exists_wide {tag : UInt8} {payload : List UInt8} (isWide : tag = 5 ∨ tag = 6)
    (complete : payload.length = 8) :
    ∃ entry : PoolEntry, entry.isWide = true ∧ entry.Writable ∧ entry.bytes = tag :: payload := by
  have bounded := bigEndian_lt payload
  rw [complete] at bounded
  have toNatEq : (UInt64.ofNat (bigEndian payload)).toNat = bigEndian payload :=
    UInt64.toNat_ofNat_of_lt' bounded
  have payloadEq := bigEndianBytes_bigEndian payload
  rw [complete] at payloadEq
  rcases isWide with rfl | rfl
  · refine ⟨.long (UInt64.ofNat (bigEndian payload)).toInt64, rfl, trivial, ?_⟩
    simp only [bytes, PoolEntry.tag, PoolEntry.payload]
    rw [UInt64.toUInt64_toInt64, toNatEq, payloadEq]
  · refine ⟨.double (UInt64.ofNat (bigEndian payload)), rfl, trivial, ?_⟩
    simp only [bytes, PoolEntry.tag, PoolEntry.payload]
    rw [toNatEq, payloadEq]

theorem slots_of_wide {entry : PoolEntry} (wide : entry.isWide = true) :
    entry.slots = [some entry, none] := by
  simp [slots, width_of_wide wide]

theorem slots_of_narrow {entry : PoolEntry} (narrow : entry.isWide = false) :
    entry.slots = [some entry] := by
  simp [slots, width_of_narrow narrow]

/-- After slot zero, the slots without an entry are those behind a wide entry. -/
theorem getElem?_slots_eq_none_iff {entries : List PoolEntry} {slot : Nat} :
    (none :: entries.flatMap slots)[slot]? = some none ↔
      slot = 0 ∨ ∃ earlier entry, slot = earlier + 1 ∧ entry.isWide = true ∧
        (none :: entries.flatMap slots)[earlier]? = some (some entry) := by
  induction entries generalizing slot with
  | nil =>
      cases slot with
      | zero => simp
      | succ slot => cases slot <;> simp
  | cons first entries ih =>
      rw [List.flatMap_cons]
      cases wide : first.isWide with
      | true =>
          rw [slots_of_wide wide]
          match slot with
          | 0 | 1 => simp
          | 2 => simp [wide]
          | slot + 3 => simpa using @ih (slot + 1)
      | false =>
          rw [slots_of_narrow wide]
          match slot with
          | 0 | 1 => simp
          | 2 => simpa [wide] using @ih 1
          | slot + 3 => simpa using @ih (slot + 2)

end PoolEntry

namespace ConstantPool

/-- A place between two rounds: the index of the next slot, the slots stored so
far, and the bytes that are left. -/
structure Filling where
  index : Nat
  slots : Array (Option PoolEntry)
  cursor : Cursor

/-- The place before the first round.  Slot zero is stored already. -/
def Filling.start (cursor : Cursor) : Filling :=
  ⟨1, #[none], cursor⟩

/-- One round: the entry that is read for the next slot, and the place after it.  A
wide entry needs another slot below the count. -/
def Filling.round (count : Nat) (place : Filling) :
    Except DecodeError (PoolEntry × Filling) :=
  match readEntry place.index place.cursor with
  | .error error => .error error
  | .ok (entry, cursor) =>
      if entry.isWide then
        if count ≤ place.index + 1 then
          .error (.malformed .constantPool)
        else
          .ok (entry, ⟨place.index + 2, (place.slots.push (some entry)).push none, cursor⟩)
      else
        .ok (entry, ⟨place.index + 1, place.slots.push (some entry), cursor⟩)

/-- Rounds follow one another as long as the index is below the count, and read
entries on the way. -/
inductive Rounds (count : Nat) : Filling → List PoolEntry → Filling → Prop
  | done (place : Filling) : Rounds count place [] place
  | step {before middle after : Filling} {entry : PoolEntry} {entries : List PoolEntry}
      (below : before.index < count) (roundEq : before.round count = .ok (entry, middle))
      (rounds : Rounds count middle entries after) :
      Rounds count before (entry :: entries) after

variable {count : Nat} {before place middle after : Filling} {entry : PoolEntry}
  {entries : List PoolEntry} {error : DecodeError}

/-- What one round does. -/
theorem Filling.round_eq_ok_iff :
    before.round count = .ok (entry, after) ↔
      entry.Writable ∧ before.cursor.Passes entry.bytes after.cursor ∧
        (entry.isWide = true → before.index + 1 < count) ∧
        after.index = before.index + entry.width ∧
        after.slots = before.slots ++ entry.slots.toArray := by
  obtain ⟨index, slots, start⟩ := before
  obtain ⟨nextIndex, nextSlots, rest⟩ := after
  rw [← and_assoc, ← readEntry_eq_ok_iff index]
  unfold round
  dsimp only
  cases readEq : readEntry index start with
  | error error => simp
  | ok pair =>
      obtain ⟨found, middle⟩ := pair
      cases wide : found.isWide with
      | true =>
          have width := PoolEntry.width_of_wide wide
          have slotsEq := PoolEntry.append_slots_of_wide wide slots
          grind
      | false =>
          have width := PoolEntry.width_of_narrow wide
          have slotsEq := PoolEntry.append_slots_of_narrow wide slots
          grind

/-- A round is either over the last entry that fits, or leaves the index within the
count. -/
theorem Filling.index_le_of_round (roundEq : before.round count = .ok (entry, after))
    (below : before.index < count) : after.index ≤ count := by
  obtain ⟨_, _, fits, indexEq, _⟩ := round_eq_ok_iff.mp roundEq
  cases wide : entry.isWide with
  | true =>
      have inside := fits wide
      rw [PoolEntry.width_of_wide wide] at indexEq
      omega
  | false =>
      rw [PoolEntry.width_of_narrow wide] at indexEq
      omega

namespace Rounds

theorem append {others : List PoolEntry} (rounds : Rounds count before entries middle)
    (later : Rounds count middle others after) :
    Rounds count before (entries ++ others) after := by
  induction rounds with
  | done => exact later
  | step below roundEq _ ih => exact .step below roundEq (ih later)

/-- The round in which an entry was read. -/
theorem exists_round {earlier later : List PoolEntry}
    (rounds : Rounds count before (earlier ++ entry :: later) after) :
    ∃ place next, Rounds count before earlier place ∧ place.index < count ∧
      place.round count = .ok (entry, next) ∧ Rounds count next later after := by
  induction earlier generalizing before with
  | nil =>
      cases rounds with
      | @step _ next _ _ _ below roundEq rounds =>
          exact ⟨before, next, .done before, below, roundEq, rounds⟩
  | cons first earlier ih =>
      cases rounds with
      | step below roundEq rounds =>
          obtain ⟨place, next, reached, placeBelow, placeEq, rest⟩ := ih rounds
          exact ⟨place, next, .step below roundEq reached, placeBelow, placeEq, rest⟩

/-- The index moves over the slots that the entries take. -/
theorem index_eq (rounds : Rounds count before entries after) :
    after.index = before.index + PoolEntry.slotCount entries := by
  induction rounds with
  | done => rfl
  | step _ roundEq _ ih =>
      obtain ⟨_, _, _, indexEq, _⟩ := Filling.round_eq_ok_iff.mp roundEq
      rw [ih, indexEq, PoolEntry.slotCount_cons, Nat.add_assoc]

theorem slots_eq (rounds : Rounds count before entries after) :
    after.slots = before.slots ++ (entries.flatMap PoolEntry.slots).toArray := by
  induction rounds with
  | done => simp
  | step _ roundEq _ ih =>
      obtain ⟨_, _, _, _, slotsEq⟩ := Filling.round_eq_ok_iff.mp roundEq
      rw [ih, slotsEq, List.flatMap_cons, ← List.append_toArray, Array.append_assoc]

theorem index_le (rounds : Rounds count before entries after)
    (inside : before.index ≤ max count 1) : after.index ≤ max count 1 := by
  induction rounds with
  | done => exact inside
  | step below roundEq _ ih =>
      have afterRound := Filling.index_le_of_round roundEq below
      exact ih (by omega)

/-- The index stays the number of the slots that are stored. -/
theorem size_eq (rounds : Rounds count before entries after)
    (aligned : before.slots.size = before.index) : after.slots.size = after.index := by
  induction rounds with
  | done => exact aligned
  | @step before middle after entry entries _ roundEq _ ih =>
      obtain ⟨_, _, _, indexEq, slotsEq⟩ := Filling.round_eq_ok_iff.mp roundEq
      apply ih
      rw [slotsEq, indexEq, Array.size_append, aligned, List.size_toArray,
        PoolEntry.length_slots]

end Rounds

theorem readSlots_succ (remaining slot : Nat) (slots : Array (Option PoolEntry)) :
    (readSlots (remaining + 1) slot slots : Reader (Array (Option PoolEntry))) = (do
      let entry ← readEntry slot
      if entry.isWide then
        if remaining = 0 then
          Reader.fail (.malformed .constantPool)
        else
          readSlots (remaining - 1) (slot + 2) ((slots.push (some entry)).push none)
      else
        readSlots remaining (slot + 1) (slots.push (some entry))) := by
  cases remaining with
  | zero =>
      rw [readSlots_one, readEntry, bind_assoc]
      rfl
  | succ remaining =>
      rw [readSlots_add_two, readEntry, bind_assoc]
      rfl

/-- Reading slots is a round and then reading the slots that are left. -/
theorem readSlots_eq_round (below : place.index < count) :
    readSlots (count - place.index) place.index place.slots place.cursor =
      match place.round count with
      | .error error => .error error
      | .ok (_, next) => readSlots (count - next.index) next.index next.slots next.cursor := by
  obtain ⟨index, slots, cursor⟩ := place
  dsimp only at below ⊢
  obtain ⟨remaining, rfl⟩ : ∃ remaining, count = index + 1 + remaining :=
    Nat.exists_eq_add_of_le below
  have remainingEq : index + 1 + remaining - index = remaining + 1 := by omega
  rw [remainingEq, readSlots_succ]
  unfold Filling.round
  dsimp only
  cases readEq : readEntry index cursor with
  | error error => rw [Reader.bind_of_error readEq]
  | ok pair =>
      obtain ⟨entry, rest⟩ := pair
      rw [Reader.bind_of_ok readEq]
      dsimp only
      cases wide : entry.isWide with
      | true =>
          rw [if_pos rfl, if_pos rfl]
          by_cases atEnd : remaining = 0
          · rw [if_pos atEnd, if_pos (by omega)]
            rfl
          · rw [if_neg atEnd, if_neg (by omega)]
            have laterEq : index + 1 + remaining - (index + 2) = remaining - 1 := by omega
            dsimp only
            rw [laterEq]
      | false =>
          rw [if_neg Bool.false_ne_true, if_neg Bool.false_ne_true]
          have laterEq : index + 1 + remaining - (index + 1) = remaining := by omega
          dsimp only
          rw [laterEq]

/-- What reading slots gives does not change from round to round. -/
theorem Rounds.readSlots_eq (rounds : Rounds count before entries after) :
    readSlots (count - before.index) before.index before.slots before.cursor =
      readSlots (count - after.index) after.index after.slots after.cursor := by
  induction rounds with
  | done => rfl
  | step below roundEq rounds ih =>
      rw [readSlots_eq_round below, roundEq]
      exact ih

/-- The rounds come to an end, at the count or at one that fails. -/
theorem exists_last (count : Nat) (place : Filling) :
    ∃ entries last, Rounds count place entries last ∧
      (count ≤ last.index ∨
        last.index < count ∧ ∃ error, last.round count = .error error) := by
  generalize leftEq : count - place.index = left
  -- Every round moves the index up, so fewer slots are left.
  induction left using Nat.strongRecOn generalizing place with
  | ind left ih =>
      by_cases below : place.index < count
      · cases roundEq : place.round count with
        | error error => exact ⟨[], place, .done place, .inr ⟨below, error, roundEq⟩⟩
        | ok pair =>
            obtain ⟨entry, next⟩ := pair
            obtain ⟨_, _, _, indexEq, _⟩ := Filling.round_eq_ok_iff.mp roundEq
            have positive := entry.width_pos
            obtain ⟨entries, last, rounds, ended⟩ := ih _ (by omega) next rfl
            exact ⟨entry :: entries, last, .step below roundEq rounds, ended⟩
      · exact ⟨[], place, .done place, .inl (by omega)⟩

/-- There is one way to the end of the rounds, and every place that rounds lead to is
on it. -/
theorem Rounds.leadsOn {last : Filling} {others : List PoolEntry}
    (rounds : Rounds count before entries last) (ended : count ≤ last.index)
    (reached : Rounds count before others middle) :
    ∃ more, Rounds count middle more last ∧ entries = others ++ more := by
  induction reached generalizing entries with
  | done place => exact ⟨entries, rounds, rfl⟩
  | step below roundEq _ ih =>
      cases rounds with
      | done => omega
      | step _ sameRound rounds =>
          rw [roundEq] at sameRound
          cases sameRound
          obtain ⟨more, roundsMore, entriesEq⟩ := ih rounds
          exact ⟨more, roundsMore, by rw [entriesEq, List.cons_append]⟩

theorem entry_eq_error_iff_slots {pool : ConstantPool} {index : UInt16} :
    pool.entry index = .error (.badConstantIndex index) ↔
      pool.slots[index.toNat]? = none ∨ pool.slots[index.toNat]? = some none := by
  unfold ConstantPool.entry
  split
  next found => simp [found]
  next unusable =>
    cases slotEq : pool.slots[index.toNat]? with
    | none => simp
    | some slot =>
        cases slot with
        | none => simp
        | some entry => exact absurd slotEq (unusable entry)

/-- The pool that rounds have filled up to a count, from a place of the file on.  Slot
zero and the slots behind wide entries hold no entry, and each other slot holds the
entry that was read in its round. -/
structure Filled (count : Nat) (start : Cursor) (pool : ConstantPool) : Prop where
  size : pool.slots.size = max count 1
  unusable (slot : Nat) : pool.slots[slot]? = some none ↔
    slot = 0 ∨ ∃ earlier entry, slot = earlier + 1 ∧ entry.isWide = true ∧
      pool.slots[earlier]? = some (some entry)
  wide {slot : Nat} {entry : PoolEntry} (held : pool.slots[slot]? = some (some entry))
    (isWide : entry.isWide = true) : slot + 1 < count
  fails (index : UInt16) : pool.entry index = .error (.badConstantIndex index) ↔
    index = 0 ∨ count ≤ index.toNat ∨
      ∃ earlier entry, index.toNat = earlier + 1 ∧ entry.isWide = true ∧
        pool.slots[earlier]? = some (some entry)
  finds (index : UInt16) (entry : PoolEntry) : pool.entry index = .ok entry ↔
    ∃ entries place next, Rounds count (.start start) entries place ∧
      place.index = index.toNat ∧ index.toNat < count ∧
      place.round count = .ok (entry, next) ∧ place.cursor.Passes entry.bytes next.cursor

theorem Rounds.getElem?_slots {start : Cursor} {last : Filling}
    (rounds : Rounds count (.start start) entries last) (slot : Nat) :
    last.slots[slot]? = (none :: entries.flatMap PoolEntry.slots)[slot]? := by
  rw [rounds.slots_eq]
  simp [Filling.start]

/-- A slot holds the entry of the round that had the slot as its index. -/
theorem Rounds.getElem?_slots_eq_some_iff {start : Cursor} {last : Filling}
    (rounds : Rounds count (.start start) entries last) (ended : count ≤ last.index)
    {slot : Nat} :
    last.slots[slot]? = some (some entry) ↔
      ∃ earlier place next, Rounds count (.start start) earlier place ∧ place.index = slot ∧
        slot < count ∧ place.round count = .ok (entry, next) := by
  rw [rounds.getElem?_slots]
  cases slot with
  | zero =>
      constructor
      · simp
      · rintro ⟨earlier, place, next, reached, isZero, _⟩
        have indexEq := reached.index_eq
        simp only [Filling.start] at indexEq
        omega
  | succ slot =>
      rw [List.getElem?_cons_succ, PoolEntry.getElem?_flatMap_slots_eq_some_iff]
      constructor
      · rintro ⟨earlier, later, rfl, rfl⟩
        obtain ⟨place, next, reached, below, roundEq, _⟩ := rounds.exists_round
        have indexEq : place.index = PoolEntry.slotCount earlier + 1 := by
          have moved := reached.index_eq
          simp only [Filling.start] at moved
          omega
        rw [indexEq] at below
        exact ⟨earlier, place, next, reached, indexEq, below, roundEq⟩
      · rintro ⟨earlier, place, next, reached, placeEq, below, roundEq⟩
        have reachedNext := reached.append (.step (by omega) roundEq (.done next))
        obtain ⟨later, _, entriesEq⟩ := rounds.leadsOn ended reachedNext
        have indexEq := reached.index_eq
        simp only [Filling.start] at indexEq
        exact ⟨earlier, later, by simpa using entriesEq, by omega⟩

theorem Rounds.filled {start : Cursor} {last : Filling}
    (rounds : Rounds count (.start start) entries last) (ended : count ≤ last.index) :
    Filled count start ⟨last.slots⟩ := by
  have size : last.slots.size = max count 1 := by
    have aligned := rounds.size_eq rfl
    have inside := rounds.index_le (Nat.le_max_right count 1)
    have indexEq := rounds.index_eq
    simp only [Filling.start] at indexEq
    omega
  have unusable (slot : Nat) : last.slots[slot]? = some none ↔
      slot = 0 ∨ ∃ earlier entry, slot = earlier + 1 ∧ entry.isWide = true ∧
        last.slots[earlier]? = some (some entry) := by
    simp only [rounds.getElem?_slots]
    exact PoolEntry.getElem?_slots_eq_none_iff
  refine ⟨size, unusable, ?_, ?_, ?_⟩
  · intro slot entry held isWide
    obtain ⟨_, place, _, _, indexEq, _, roundEq⟩ :=
      (rounds.getElem?_slots_eq_some_iff ended).mp held
    obtain ⟨_, _, fits, _⟩ := Filling.round_eq_ok_iff.mp roundEq
    rw [← indexEq]
    exact fits isWide
  · intro index
    have zeroIff : index = 0 ↔ index.toNat = 0 := UInt16.toNat_inj.symm
    rw [entry_eq_error_iff_slots, unusable, Array.getElem?_eq_none_iff, size, zeroIff]
    constructor
    · rintro (beyond | isZero | behindWide)
      · exact .inr (.inl (by omega))
      · exact .inl isZero
      · exact .inr (.inr behindWide)
    · rintro (isZero | beyond | behindWide)
      · exact .inr (.inl isZero)
      · by_cases isZero : index.toNat = 0
        · exact .inr (.inl isZero)
        · exact .inl (by omega)
      · exact .inr (.inr behindWide)
  · intro index entry
    rw [entry_eq_ok_iff_slots, rounds.getElem?_slots_eq_some_iff ended]
    constructor
    · rintro ⟨entries, place, next, reached, indexEq, below, roundEq⟩
      exact ⟨entries, place, next, reached, indexEq, below, roundEq,
        (Filling.round_eq_ok_iff.mp roundEq).2.1⟩
    · rintro ⟨entries, place, next, reached, indexEq, below, roundEq, _⟩
      exact ⟨entries, place, next, reached, indexEq, below, roundEq⟩

/-! ## Rounds that fail -/

theorem Filling.round_of_wide_last {tag : UInt8} {payload tail : List UInt8}
    (isWide : tag = 5 ∨ tag = 6) (complete : payload.length = 8)
    (last : place.index + 1 = count) (restEq : place.cursor.rest = tag :: (payload ++ tail)) :
    place.round count = .error (.malformed .constantPool) := by
  obtain ⟨entry, wide, writable, bytesEq⟩ := PoolEntry.exists_wide isWide complete
  have readEq : readEntry place.index place.cursor =
      .ok (entry, ⟨place.cursor.offset + entry.bytes.length, tail⟩) := by
    refine (readEntry_eq_ok_iff _).mpr ⟨writable, ?_, rfl⟩
    rw [bytesEq]
    exact restEq
  simp only [round, readEq]
  rw [if_pos wide, if_pos (by omega)]

theorem readEntry_eq_unknown_iff {slot index : Nat} {tag : UInt8} {start : Cursor} :
    readEntry slot start = .error (.unknownConstantTag tag index) ↔
      index = slot ∧ start.rest.head? = some tag ∧ ∀ entry : PoolEntry, entry.tag ≠ tag := by
  obtain ⟨offset, rest⟩ := start
  have notEnd : ¬(DecodeError.unknownConstantTag tag index).IsEnd := by
    rintro ⟨place, missing, same⟩
    cases same
  cases rest with
  | nil =>
      constructor
      · intro failed
        cases failed
      · rintro ⟨_, noByte, _⟩
        cases noByte
  | cons byte rest =>
      have readTag :
          Reader.u8 (Cursor.mk offset (byte :: rest)) = .ok (byte, ⟨offset + 1, rest⟩) :=
        Reader.u8_eq_ok_iff.mpr ⟨rfl, rfl⟩
      rw [readEntry, Reader.bind_of_ok readTag, List.head?_cons, Option.some_inj]
      by_cases known : ∃ entry : PoolEntry, entry.tag = byte
      · obtain ⟨entry, rfl⟩ := known
        constructor
        · intro failed
          exact absurd (entry.onlyEnds_readTagged slot _ _ failed) notEnd
        · rintro ⟨_, rfl, unknown⟩
          exact absurd rfl (unknown entry)
      · have unknown : ∀ entry : PoolEntry, entry.tag ≠ byte := by
          intro entry tagEq
          exact known ⟨entry, tagEq⟩
        rw [PoolEntry.readTagged_of_unknown unknown]
        constructor
        · intro failed
          cases failed
          exact ⟨rfl, rfl, unknown⟩
        · rintro ⟨rfl, rfl, _⟩
          rfl

theorem Filling.round_eq_unknown_iff {tag : UInt8} {index : Nat} :
    place.round count = .error (.unknownConstantTag tag index) ↔
      index = place.index ∧ place.cursor.rest.head? = some tag ∧
        ∀ entry : PoolEntry, entry.tag ≠ tag := by
  rw [← readEntry_eq_unknown_iff]
  unfold round
  split
  next error readEq => simp [readEq]
  next entry rest readEq =>
    rw [readEq]
    split
    · split <;> simp
    · simp

/-! ## Reading a pool -/

section Read

variable {declared : UInt16} {file start : Cursor} {last : Filling}

theorem read_of_count (readCount : Reader.u16 file = .ok (declared, start)) :
    read file = match readSlots (declared.toNat - 1) 1 #[none] start with
      | .error error => .error error
      | .ok (slots, rest) => .ok (⟨slots⟩, rest) := by
  rw [read, Reader.bind_of_ok readCount]
  cases slotsEq : readSlots (declared.toNat - 1) 1 #[none] start with
  | error error => rw [Reader.bind_of_error slotsEq]
  | ok pair => rw [Reader.bind_of_ok slotsEq]; rfl

theorem Rounds.read_eq (rounds : Rounds declared.toNat (.start start) entries last)
    (readCount : Reader.u16 file = .ok (declared, start)) :
    read file = match readSlots (declared.toNat - last.index) last.index last.slots last.cursor with
      | .error error => .error error
      | .ok (slots, rest) => .ok (⟨slots⟩, rest) := by
  have same := rounds.readSlots_eq
  simp only [Filling.start] at same
  rw [read_of_count readCount, same]

theorem Rounds.read_of_ended (rounds : Rounds declared.toNat (.start start) entries last)
    (readCount : Reader.u16 file = .ok (declared, start)) (ended : declared.toNat ≤ last.index) :
    read file = .ok (⟨last.slots⟩, last.cursor) := by
  have noneLeft : declared.toNat - last.index = 0 := by omega
  rw [rounds.read_eq readCount, noneLeft]
  rfl

theorem Rounds.read_of_failed (rounds : Rounds declared.toNat (.start start) entries last)
    (readCount : Reader.u16 file = .ok (declared, start)) (below : last.index < declared.toNat)
    (failed : last.round declared.toNat = .error error) : read file = .error error := by
  rw [rounds.read_eq readCount, readSlots_eq_round below, failed]

theorem read_eq_ok_iff_rounds (readCount : Reader.u16 file = .ok (declared, start))
    {pool : ConstantPool} {rest : Cursor} :
    read file = .ok (pool, rest) ↔
      ∃ entries last, Rounds declared.toNat (.start start) entries last ∧
        declared.toNat ≤ last.index ∧ pool = ⟨last.slots⟩ ∧ rest = last.cursor := by
  constructor
  · intro readEq
    obtain ⟨entries, last, rounds, ended | ⟨below, error, failed⟩⟩ :=
      exists_last declared.toNat (.start start)
    · rw [rounds.read_of_ended readCount ended] at readEq
      cases readEq
      exact ⟨entries, last, rounds, ended, rfl, rfl⟩
    · rw [rounds.read_of_failed readCount below failed] at readEq
      cases readEq
  · rintro ⟨entries, last, rounds, ended, rfl, rfl⟩
    exact rounds.read_of_ended readCount ended

theorem read_eq_error_iff_rounds (readCount : Reader.u16 file = .ok (declared, start)) :
    read file = .error error ↔
      ∃ entries last, Rounds declared.toNat (.start start) entries last ∧
        last.index < declared.toNat ∧ last.round declared.toNat = .error error := by
  constructor
  · intro readEq
    obtain ⟨entries, last, rounds, ended | ⟨below, other, failed⟩⟩ :=
      exists_last declared.toNat (.start start)
    · rw [rounds.read_of_ended readCount ended] at readEq
      cases readEq
    · rw [rounds.read_of_failed readCount below failed] at readEq
      cases readEq
      exact ⟨entries, last, rounds, below, failed⟩
  · rintro ⟨entries, last, rounds, below, failed⟩
    exact rounds.read_of_failed readCount below failed

end Read

/-- After its count, a pool is read in rounds, in all of which as many slots are stored
as the index says.  The rounds end well in a pool that is filled up to the count, and
badly at a wide entry that would need the slot at the count, or at a tag that no entry
has, which is reported with its own slot. -/
theorem read_keeps_slots (file start : Cursor) (declared : UInt16)
    (readCount : Reader.u16 file = .ok (declared, start)) :
    (∀ entries place, Rounds declared.toNat (.start start) entries place →
      place.slots.size = place.index ∧ place.index ≤ max declared.toNat 1) ∧
    (∀ pool rest, read file = .ok (pool, rest) ↔
      ∃ entries last, Rounds declared.toNat (.start start) entries last ∧
        declared.toNat ≤ last.index ∧ pool = ⟨last.slots⟩ ∧ rest = last.cursor) ∧
    (∀ error, read file = .error error ↔
      ∃ entries last, Rounds declared.toNat (.start start) entries last ∧
        last.index < declared.toNat ∧ last.round declared.toNat = .error error) ∧
    (∀ pool rest, read file = .ok (pool, rest) → Filled declared.toNat start pool) ∧
    (∀ entries place tag payload tail, Rounds declared.toNat (.start start) entries place →
      place.index + 1 = declared.toNat → tag = 5 ∨ tag = 6 → payload.length = 8 →
      place.cursor.rest = tag :: (payload ++ tail) →
        read file = .error (.malformed .constantPool)) ∧
    ∀ tag index, read file = .error (.unknownConstantTag tag index) ↔
      ∃ entries place, Rounds declared.toNat (.start start) entries place ∧
        place.index = index ∧ index < declared.toNat ∧
        place.cursor.rest.head? = some tag ∧ ∀ entry : PoolEntry, entry.tag ≠ tag := by
  refine ⟨?_, fun _ _ => read_eq_ok_iff_rounds readCount,
    fun _ => read_eq_error_iff_rounds readCount, ?_, ?_, ?_⟩
  · intro entries place rounds
    exact ⟨rounds.size_eq rfl, rounds.index_le (Nat.le_max_right _ _)⟩
  · intro pool rest readEq
    obtain ⟨entries, last, rounds, ended, rfl, _⟩ := (read_eq_ok_iff_rounds readCount).mp readEq
    exact rounds.filled ended
  · intro entries place tag payload tail rounds isLast isWide complete restEq
    have failed := Filling.round_of_wide_last isWide complete isLast restEq
    exact rounds.read_of_failed readCount (by omega) failed
  · intro tag index
    rw [read_eq_error_iff_rounds readCount]
    constructor
    · rintro ⟨entries, place, rounds, below, failed⟩
      obtain ⟨rfl, nextByte, unknown⟩ := Filling.round_eq_unknown_iff.mp failed
      exact ⟨entries, place, rounds, rfl, below, nextByte, unknown⟩
    · rintro ⟨entries, place, rounds, rfl, below, nextByte, unknown⟩
      exact ⟨entries, place, rounds, below,
        Filling.round_eq_unknown_iff.mpr ⟨rfl, nextByte, unknown⟩⟩

/-- The written form of a pool with a wide entry in front of two others. -/
def widePool : List UInt8 :=
  [0, 5, 5, 0, 0, 0, 0, 0, 0, 0, 7, 1, 0, 1, 65, 7, 0, 3]

/-- A pool whose last slot is given to a wide entry. -/
def overfullPool : List UInt8 :=
  [0, 2, 6, 1, 2, 3, 4, 5, 6, 7, 8]

/-- A pool with a wide entry and then a tag that no entry has. -/
def strayTagPool : List UInt8 :=
  [0, 4, 5, 0, 0, 0, 0, 0, 0, 0, 7, 2]

theorem read_keeps_slots_widePool :
    Filled 5 ⟨2, widePool.drop 2⟩
      ⟨#[none, some (.long 7), none, some (.utf8 [65]), some (.classReference 3)]⟩ ∧
    read (Cursor.start overfullPool) = .error (.malformed .constantPool) ∧
    ∃ entries place, Rounds 4 (.start ⟨2, strayTagPool.drop 2⟩) entries place ∧
      place.index = 3 ∧ place.slots.size = 3 ∧ place.cursor.rest.head? = some 2 := by
  have readEq : read (Cursor.start widePool) =
      .ok (⟨#[none, some (.long 7), none, some (.utf8 [65]), some (.classReference 3)]⟩,
        ⟨18, []⟩) := by decide +kernel
  have failed : read (Cursor.start strayTagPool) = .error (.unknownConstantTag 2 3) := by
    decide +kernel
  have wide := read_keeps_slots (Cursor.start widePool) ⟨2, widePool.drop 2⟩ 5 (by decide +kernel)
  have overfull := read_keeps_slots (Cursor.start overfullPool) ⟨2, overfullPool.drop 2⟩ 2
    (by decide +kernel)
  have stray := read_keeps_slots (Cursor.start strayTagPool) ⟨2, strayTagPool.drop 2⟩ 4
    (by decide +kernel)
  refine ⟨wide.2.2.2.1 _ _ readEq, ?_, ?_⟩
  · exact overfull.2.2.2.2.1 [] (.start _) 6 [1, 2, 3, 4, 5, 6, 7, 8] [] (.done _) rfl (.inr rfl)
      rfl rfl
  · obtain ⟨entries, place, rounds, indexEq, _, nextByte, _⟩ :=
      (stray.2.2.2.2.2 2 3).mp failed
    have aligned := (stray.1 entries place rounds).1
    exact ⟨entries, place, rounds, indexEq, aligned.trans indexEq, nextByte⟩

end ConstantPool

end ClassLint
