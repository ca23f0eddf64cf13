import ClassLint.Check.UnusedField
import ClassLint.Proofs.EventHistory

/-!
# Unused fields in any sequence of events

The check for unused fields keeps two lists and the name of the class.  This file
relates them to all that has happened since the latest header, for events in any
order, and so says what the check reports at the end of a class.
-/

namespace ClassLint

namespace UnusedField

/-- The name of the private field that an event declares. -/
def privateName? : Event → Option String
  | .field field => if field.access.isPrivate then some field.name else none
  | _ => none

/-- The name of the field that an event accesses through a class. -/
def accessedName? (owner : String) : Event → Option String
  | .instruction (.fieldAccess _ field) => if field.owner = owner then some field.name else none
  | _ => none

/-- The private fields that are declared after a header and not accessed through
its class, in the order of their first declarations. -/
def unusedNames (header : ClassHeader) (since : List Event) : List String :=
  (since.filterMap privateName?).eraseDups.filter
    (· ∉ since.filterMap (accessedName? header.name))

/-- A state goes with the events since a header. -/
structure Tracks (header : ClassHeader) (since : List Event) (state : State) : Prop where
  className : state.className = some header.name
  declared : state.declared = (since.filterMap privateName?).eraseDups
  used (name : String) :
    name ∈ state.used ↔ name ∈ since.filterMap (accessedName? header.name)

theorem Tracks.unused_eq {header : ClassHeader} {since : List Event} {state : State}
    (tracks : Tracks header since state) : state.unused = unusedNames header since := by
  simp only [State.unused, unusedNames, tracks.declared, tracks.used]

theorem className_declare (state : State) (name : String) :
    (state.declare name).className = state.className := by
  unfold State.declare
  split <;> rfl

theorem className_access (state : State) (name : String) :
    (state.access name).className = state.className := by
  unfold State.access
  split <;> rfl

theorem declared_declare (state : State) (name : String) :
    (state.declare name).declared =
      if name ∈ state.declared then state.declared else state.declared ++ [name] := by
  unfold State.declare
  split <;> rfl

theorem used_declare (state : State) (name : String) :
    (state.declare name).used = state.used := by
  unfold State.declare
  split <;> rfl

theorem declared_access (state : State) (name : String) :
    (state.access name).declared = state.declared := by
  unfold State.access
  split <;> rfl

theorem mem_used_access {state : State} {name other : String} :
    other ∈ (state.access name).used ↔ other ∈ state.used ∨ other = name := by
  unfold State.access
  split
  next member =>
    constructor
    · exact .inl
    · rintro (earlier | rfl)
      · exact earlier
      · exact member
  next => rw [List.mem_cons, or_comm]

theorem eraseDups_concat (names : List String) (name : String) :
    (names ++ [name]).eraseDups =
      if name ∈ names then names.eraseDups else names.eraseDups ++ [name] := by
  have alone : [name].eraseDups = [name] := by
    simp [List.eraseDups_cons]
  rw [List.eraseDups_append]
  split
  next member => simp [List.removeAll, member]
  next absent => simp [List.removeAll, absent, alone]

variable {header : ClassHeader} {since : List Event} {state : State}

/-- An event that neither declares nor accesses a field changes nothing. -/
theorem Tracks.of_silent (tracks : Tracks header since state) {event : Event}
    (noDeclaration : privateName? event = none)
    (noAccess : accessedName? header.name event = none) :
    Tracks header (since ++ [event]) state where
  className := tracks.className
  declared := by
    simp [tracks.declared, noDeclaration]
  used name := by
    simp [tracks.used, noAccess]

theorem Tracks.declare (tracks : Tracks header since state) {event : Event} {name : String}
    (declares : privateName? event = some name)
    (noAccess : accessedName? header.name event = none) :
    Tracks header (since ++ [event]) (state.declare name) where
  className := (className_declare state name).trans tracks.className
  declared := by
    have declaredNow : (since ++ [event]).filterMap privateName? =
        since.filterMap privateName? ++ [name] := by
      simp [declares]
    rw [declared_declare, tracks.declared, declaredNow, eraseDups_concat]
    simp only [List.mem_eraseDups]
  used other := by
    rw [used_declare]
    simp [tracks.used, noAccess]

theorem Tracks.access (tracks : Tracks header since state) {event : Event} {name : String}
    (noDeclaration : privateName? event = none)
    (accesses : accessedName? header.name event = some name) :
    Tracks header (since ++ [event]) (state.access name) where
  className := (className_access state name).trans tracks.className
  declared := by
    rw [declared_access]
    simp [tracks.declared, noDeclaration]
  used other := by
    rw [mem_used_access, tracks.used, List.filterMap_append, List.mem_append]
    simp [accesses]

/-- Every event but a header keeps the state in step with the events. -/
theorem Tracks.react (tracks : Tracks header since state) {event : Event}
    (notHeader : event.kind ≠ .classHeader) :
    Tracks header (since ++ [event]) (UnusedField.react state event).state := by
  cases event with
  | classHeader other => exact absurd rfl notHeader
  | field field =>
      simp only [UnusedField.react, tracks.className, Reaction.next]
      split
      next isPrivate => exact tracks.declare (if_pos isPrivate) rfl
      next notPrivate => exact tracks.of_silent (if_neg notPrivate) rfl
  | instruction instruction =>
      cases instruction with
      | fieldAccess opcode field =>
          simp only [UnusedField.react, tracks.className, Reaction.next, Option.some.injEq]
          split
          next isOwner => exact tracks.access rfl (if_pos isOwner.symm)
          next otherOwner => exact tracks.of_silent rfl (if_neg (Ne.symm otherOwner))
      | _ => exact tracks.of_silent rfl rfl
  | methodStart _ | methodEnd | classEnd => exact tracks.of_silent rfl rfl

/-- Without a header nothing is kept: fields are refused, and no class is there to
access them through. -/
theorem state_react_fresh {event : Event} (notHeader : event.kind ≠ .classHeader) :
    (react .fresh event).state = .fresh := by
  cases event with
  | classHeader header => exact absurd rfl notHeader
  | instruction instruction => cases instruction <;> rfl
  | field _ | methodStart _ | methodEnd | classEnd => rfl

theorem state_after_headerFree (session : Session check) {past : List Event}
    (headerFree : HeaderFree past) : (session.reset.after past).state = State.fresh := by
  refine session.reset.after_headerFree (fun _ state => state = State.fresh) rfl ?_ headerFree
  rintro _ event _ state notHeader rfl
  exact state_react_fresh notHeader

theorem tracks_after_header (session : Session check) (before : List Event)
    (header : ClassHeader) {since : List Event} (headerFree : HeaderFree since) :
    Tracks header since (session.after (before ++ .classHeader header :: since)).state := by
  refine session.after_latestHeader (Tracks header) ?_ ?_ before headerFree
  · intro context state
    exact ⟨rfl, rfl, fun _ => Iff.rfl⟩
  · intro past event context state notHeader tracks
    exact tracks.react notHeader

theorem react_fresh_outcome (event : Event) :
    (react .fresh event).reports = [] ∧
      (react .fresh event).stop =
        if event.kind = .field then some (.fault (.missingHeader .field)) else none := by
  cases event with
  | instruction instruction => cases instruction <;> exact ⟨rfl, rfl⟩
  | classHeader _ | field _ | methodStart _ | methodEnd | classEnd => exact ⟨rfl, rfl⟩

theorem Tracks.react_outcome (tracks : Tracks header since state) (event : Event) :
    (UnusedField.react state event).reports =
        (if event = .classEnd then (unusedNames header since).map message else []) ∧
      (UnusedField.react state event).stop = none := by
  cases event with
  | field field =>
      simp only [UnusedField.react, tracks.className]
      exact ⟨rfl, rfl⟩
  | instruction instruction => cases instruction <;> exact ⟨rfl, rfl⟩
  | classEnd =>
      simp only [UnusedField.react, tracks.unused_eq]
      exact ⟨rfl, rfl⟩
  | classHeader _ | methodStart _ | methodEnd => exact ⟨rfl, rfl⟩

theorem outcome_feed (session : Session check) (event : Event) :
    (session.feed event).2 =
      ⟨(react session.state event).reports, (react session.state event).stop⟩ :=
  rfl

/-- What the check does at an event after some others.  Before the first header it
refuses fields and does nothing else.  After a header it never stops, and at the
end of a class it reports by their names the unused private fields since the latest
header. -/
theorem outcome_of_history (session : Session check) (past later : List Event)
    (event : Event) :
    (HeaderFree past →
      (session.reset.outcomes (past ++ event :: later))[past.length]? =
        some ⟨[], if event.kind = .field then some (.fault (.missingHeader .field)) else none⟩) ∧
    ∀ before header since, past = before ++ .classHeader header :: since → HeaderFree since →
      (session.reset.outcomes (past ++ event :: later))[past.length]? =
        some ⟨if event = .classEnd then
            (unusedNames header since).map fun name =>
              "Private field '" ++ name ++ "' appears to be unused."
          else [], none⟩ := by
  rw [Session.getElem?_outcomes, outcome_feed]
  constructor
  · intro headerFree
    obtain ⟨reportsEq, stopEq⟩ := react_fresh_outcome event
    rw [state_after_headerFree session headerFree, reportsEq, stopEq]
  · rintro before header since rfl headerFree
    have tracks := tracks_after_header session.reset before header headerFree
    obtain ⟨reportsEq, stopEq⟩ := tracks.react_outcome event
    rw [reportsEq, stopEq]
    rfl

/-- Events of two classes, the second of which declares three names and accesses
one of them through itself and one through another class. -/
def twoClasses : List Event :=
  [.classHeader ⟨"pkg/Old", ⟨33⟩, none, []⟩, .field ⟨"stale", "I", ⟨2⟩, none⟩,
    .classHeader ⟨"pkg/New", ⟨33⟩, none, []⟩,
    .instruction (.fieldAccess 180 ⟨"pkg/New", "used", "I"⟩),
    .field ⟨"first", "I", ⟨2⟩, none⟩, .field ⟨"used", "I", ⟨2⟩, none⟩,
    .field ⟨"second", "I", ⟨2⟩, none⟩, .field ⟨"first", "J", ⟨2⟩, none⟩,
    .instruction (.fieldAccess 180 ⟨"pkg/Old", "second", "I"⟩)]

theorem outcome_of_history_twoClasses :
    HeaderFree [.methodEnd] ∧
      ((Session.new check "New").reset.outcomes
          ([.methodEnd] ++ [.field ⟨"early", "I", ⟨2⟩, none⟩]))[1]? =
        some ⟨[], some (.fault (.missingHeader .field))⟩ ∧
      HeaderFree (twoClasses.drop 3) ∧
      ((Session.new check "New").reset.outcomes (twoClasses ++ [.classEnd]))[9]? =
        some ⟨["Private field 'first' appears to be unused.",
          "Private field 'second' appears to be unused."], none⟩ := by
  have noHeader : HeaderFree [.methodEnd] := by decide
  have noLaterHeader : HeaderFree (twoClasses.drop 3) := by decide
  refine ⟨noHeader, ?_, noLaterHeader, ?_⟩
  · exact (outcome_of_history (.new check "New") [.methodEnd] []
      (.field ⟨"early", "I", ⟨2⟩, none⟩)).1 noHeader
  · have outcome := (outcome_of_history (.new check "New") twoClasses [] .classEnd).2
      (twoClasses.take 2) ⟨"pkg/New", ⟨33⟩, none, []⟩ (twoClasses.drop 3) rfl noLaterHeader
    have names : unusedNames ⟨"pkg/New", ⟨33⟩, none, []⟩ (twoClasses.drop 3) =
        ["first", "second"] := by
      decide +kernel
    rw [if_pos rfl, names] at outcome
    exact outcome

end UnusedField

end ClassLint
