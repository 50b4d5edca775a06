import Zape.Hash.Mapping
import Zape.Machine.Loop

/-! What the cleaner of a table gets, and when. -/
namespace ZapeProof

open Machine ZapeModel

variable {ι κ ν : Type}

/-- The content that a call overwrites or erases. -/
def displaces (keys : HashKey ι κ ν) (table : HashTable κ) (call : HashCall ι) : List HashContent :=
  match keys.given (callKey call) with
  | none => []
  | some key =>
    match keys.find table key with
    | .ok (some found) => [found.item.content]
    | _ => []

/-- A table, and all that was overwritten or erased in it. -/
structure HashHistory (κ : Type) where
  table : HashTable κ
  displaced : List HashContent := []

def historyStep (keys : HashKey ι κ ν) (step : HashTable κ → HashCall ι → Except HashFault (HashTable κ))
    (history : HashHistory κ) (call : HashCall ι) : Except HashFault (HashHistory κ) :=
  (step history.table call).map fun table => { table, displaced := displaces keys history.table call ++ history.displaced }

def emptyHistory (size : Nat) (sized : 0 < size) : HashHistory κ :=
  { table := (HashTable.hashtblInitWithSize size sized).hashtblSetCleaner }

def cleanedContents (table : HashTable κ) : List HashContent := table.cleaned.map (·.content)

/-- The cleaner never got what is still found in the table, and it got all that was overwritten or erased, once each. -/
structure Owned (seek : HashTable κ → ι → Except HashFault HashContent) (history : HashHistory κ) : Prop where
  found : ∀ key address, seek history.table key = .ok (some address) → some address ∉ cleanedContents history.table
  once : ∀ content ∈ history.displaced, (cleanedContents history.table).count content = 1

def AppendsNew (keys : HashKey ι κ ν) (history : HashHistory κ) : HashCall ι → Prop
  | .append key content => displaces keys history.table (.append key content) = []
  | .erase _ => True

instance (keys : HashKey ι κ ν) (history : HashHistory κ) : ∀ call, Decidable (AppendsNew keys history call)
  | .append _ _ => inferInstanceAs (Decidable (_ = []))
  | .erase _ => inferInstanceAs (Decidable True)

section Histories

variable {keys : HashKey ι κ ν} {history : HashHistory κ} {map : Nat × ν → Option HashContent}
  {appended : List HashContent}

/-- The contents of the table and those that the cleaner got are different ones, all appended before. -/
structure Tended (keys : HashKey ι κ ν) (appended : List HashContent) (map : Nat × ν → Option HashContent)
    (history : HashHistory κ) : Prop where
  tabulates : Tabulates keys history.table map
  cleaner : history.table.cleaner = true
  apart : ∀ spot content, map spot = some content → content ∉ cleanedContents history.table
  single : ∀ spot spot' content, map spot = some content → map spot' = some content → spot = spot'
  displaced : history.displaced = cleanedContents history.table
  nodup : (cleanedContents history.table).Nodup
  stored : ∀ spot content, map spot = some content → content ∈ appended
  passed : ∀ content ∈ cleanedContents history.table, content ∈ appended

theorem displaces_map (tabulates : Tabulates keys history.table map) (call : HashCall ι) :
    displaces keys history.table call = ((placed keys history.table.size (callKey call)).bind map).toList := by
  cases given : keys.given (callKey call) with
  | none => simp only [displaces, placed, given, Option.map_none, Option.bind_none, Option.toList_none]
  | some key =>
    obtain ⟨found, ended, content⟩ := holdsMap_find tabulates key
    simp only [displaces, placed, given, ended, Option.map_some, Option.bind_some, ← content]
    cases found with
    | none => rfl
    | some found => rfl

theorem tended_owned (tended : Tended keys appended map history) : Owned keys.seek history where
  found := by
    intro key address found
    rw [seek_map tended.tabulates key] at found
    have stored := Except.ok.inj found
    cases spot : placed keys history.table.size key with
    | none =>
      rw [spot] at stored
      cases stored
    | some spot' =>
      rw [spot] at stored
      exact tended.apart spot' _ (Option.join_eq_some_iff.mp stored)
  once := by
    intro content member
    rw [tended.displaced] at member
    exact List.count_eq_one_of_mem tended.nodup member

theorem tended_append [DecidableEq ν] (tended : Tended keys appended map history) {key : ι} {content : HashContent}
    (fresh : content ∉ appended) (new : AppendsNew keys history (.append key content)) {next : HashHistory κ}
    (stepped : historyStep keys keys.step history (.append key content) = .ok next) :
    ∃ map', Tended keys (appended ++ [content]) map' next := by
  have displaced : displaces keys history.table (.append key content) = [] := new
  obtain ⟨table, ended, step⟩ := stepped_call tended.tabulates (.append key content)
  rw [historyStep, ended, displaced] at stepped
  cases stepped
  rw [displaces_map tended.tabulates] at displaced
  have absent : (placed keys history.table.size key).bind map = none := Option.toList_eq_nil_iff.mp displaced
  have same : cleanedContents table = cleanedContents history.table := by
    have cleaned := step.cleaned
    simp only [cleans, absent, Option.isSome_none, Bool.false_eq_true, if_false, ite_self, List.nil_append] at cleaned
    exact cleaned
  have stores : ∀ spot stored, mapCall (placed keys history.table.size) map (.append key content) spot = some stored →
      (placed keys history.table.size key = some spot ∧ stored = content) ∨
        (placed keys history.table.size key ≠ some spot ∧ map spot = some stored) := by
    intro spot stored here
    by_cases named : placed keys history.table.size key = some spot
    · rw [mapCall_here named] at here
      exact .inl ⟨named, (Option.some.inj here).symm⟩
    · rw [mapCall_elsewhere named] at here
      exact .inr ⟨named, here⟩
  refine ⟨_, { tabulates := step.toTabulates, cleaner := step.cleaner.trans tended.cleaner, apart := ?_, single := ?_,
               displaced := ?_, nodup := ?_, stored := ?_, passed := ?_ }⟩
  · intro spot stored here
    show stored ∉ cleanedContents table
    rw [same]
    rcases stores spot stored here with ⟨-, rfl⟩ | ⟨-, old⟩
    · exact fun member => fresh (tended.passed _ member)
    · exact tended.apart spot stored old
  · intro spot spot' stored here here'
    rcases stores spot stored here with ⟨named, rfl⟩ | ⟨-, old⟩
    · rcases stores spot' stored here' with ⟨named', -⟩ | ⟨-, old'⟩
      · exact Option.some.inj (named.symm.trans named')
      · exact absurd (tended.stored spot' stored old') fresh
    · rcases stores spot' stored here' with ⟨-, rfl⟩ | ⟨-, old'⟩
      · exact absurd (tended.stored spot stored old) fresh
      · exact tended.single spot spot' stored old old'
  · show [] ++ history.displaced = cleanedContents table
    rw [same, List.nil_append]
    exact tended.displaced
  · show (cleanedContents table).Nodup
    rw [same]
    exact tended.nodup
  · intro spot stored here
    rcases stores spot stored here with ⟨-, rfl⟩ | ⟨-, old⟩
    · exact List.mem_append_right _ (List.mem_singleton_self _)
    · exact List.mem_append_left _ (tended.stored spot stored old)
  · intro stored member
    have before : stored ∈ cleanedContents history.table := same ▸ member
    exact List.mem_append_left _ (tended.passed stored before)

theorem tended_erase [DecidableEq ν] (tended : Tended keys appended map history) {key : ι} {next : HashHistory κ}
    (stepped : historyStep keys keys.step history (.erase key) = .ok next) : ∃ map', Tended keys appended map' next := by
  obtain ⟨table, ended, step⟩ := stepped_call tended.tabulates (.erase key)
  rw [historyStep, ended, displaces_map tended.tabulates] at stepped
  cases stepped
  have cleaned : cleanedContents table =
      ((placed keys history.table.size key).bind map).toList ++ cleanedContents history.table := by
    have all := step.cleaned
    rw [if_pos tended.cleaner] at all
    exact all
  have stores : ∀ spot stored, mapCall (placed keys history.table.size) map (.erase key) spot = some stored →
      placed keys history.table.size key ≠ some spot ∧ map spot = some stored := by
    intro spot stored here
    by_cases named : placed keys history.table.size key = some spot
    · rw [mapCall_here named] at here
      cases here
    · rw [mapCall_elsewhere named] at here
      exact ⟨named, here⟩
  have erased : ∀ content, content ∈ ((placed keys history.table.size key).bind map).toList →
      ∃ spot, placed keys history.table.size key = some spot ∧ map spot = some content := by
    intro content member
    exact Option.bind_eq_some_iff.mp (Option.mem_toList.mp member)
  refine ⟨_, { tabulates := step.toTabulates, cleaner := step.cleaner.trans tended.cleaner, apart := ?_, single := ?_,
               displaced := ?_, nodup := ?_, stored := ?_, passed := ?_ }⟩
  · intro spot stored here
    obtain ⟨differ, old⟩ := stores spot stored here
    show stored ∉ cleanedContents table
    rw [cleaned]
    intro member
    rcases List.mem_append.mp member with now | before
    · obtain ⟨spot', named, gone⟩ := erased stored now
      exact differ (named.trans (congrArg some (tended.single spot' spot stored gone old)))
    · exact tended.apart spot stored old before
  · intro spot spot' stored here here'
    exact tended.single spot spot' stored (stores spot stored here).2 (stores spot' stored here').2
  · show ((placed keys history.table.size key).bind map).toList ++ history.displaced = cleanedContents table
    rw [cleaned, tended.displaced]
  · show (cleanedContents table).Nodup
    rw [cleaned]
    apply List.Nodup.append _ tended.nodup
    · intro content now before
      obtain ⟨spot, -, gone⟩ := erased content now
      exact tended.apart spot content gone before
    · cases (placed keys history.table.size key).bind map with
      | none => exact List.nodup_nil
      | some content => exact List.nodup_singleton content
  · exact fun spot stored here => tended.stored spot stored (stores spot stored here).2
  · intro stored member
    have inside : stored ∈ cleanedContents table := member
    rw [cleaned] at inside
    rcases List.mem_append.mp inside with now | before
    · obtain ⟨spot, -, gone⟩ := erased stored now
      exact tended.stored spot stored gone
    · exact tended.passed stored before

/-- A new content under an old key: the cleaner gets the new content, and not the old one. -/
theorem overwrite_breaks [DecidableEq ν] (tended : Tended keys appended map history) {key : ι} {content : HashContent}
    (fresh : content ∉ appended) (old : ¬ AppendsNew keys history (.append key content)) :
    ∃ next, historyStep keys keys.step history (.append key content) = .ok next ∧ ¬ Owned keys.seek next := by
  have displaced := displaces_map tended.tabulates (.append key content)
  obtain ⟨table, ended, step⟩ := stepped_call tended.tabulates (.append key content)
  refine ⟨_, by rw [historyStep, ended]; rfl, ?_⟩
  intro owned
  cases before : (placed keys history.table.size key).bind map with
  | none =>
    rw [show callKey (.append key content) = key from rfl, before] at displaced
    exact old displaced
  | some previous =>
    have cleaned : cleanedContents table = content :: cleanedContents history.table := by
      have all := step.cleaned
      rw [if_pos tended.cleaner] at all
      simp only [cleans, before, Option.isSome_some, if_true] at all
      exact all
    obtain ⟨spot, -, stored⟩ := Option.bind_eq_some_iff.mp before
    have differ : content ≠ previous := by
      rintro rfl
      exact fresh (tended.stored spot content stored)
    have member : previous ∈ displaces keys history.table (.append key content) ++ history.displaced := by
      rw [displaced, show callKey (.append key content) = key from rfl, before]
      simp
    have counted := owned.once previous member
    rw [show cleanedContents _ = _ from cleaned, List.count_cons_of_ne differ,
      List.count_eq_zero_of_not_mem (tended.apart spot previous stored)] at counted
    cases counted

theorem tended_init (size : Nat) (sized : 0 < size) : Tended keys [] (fun _ => none) (emptyHistory size sized) where
  tabulates := by
    obtain ⟨⟨order, layout⟩, agrees⟩ := @tabulates_init ι κ ν keys size sized
    exact ⟨⟨order, { double := layout.double, chains := layout.chains, nodup := layout.nodup, here := layout.here,
                     below := layout.below, distinct := layout.distinct }⟩, agrees⟩
  cleaner := rfl
  apart := by nofun
  single := by nofun
  displaced := rfl
  nodup := List.nodup_nil
  stored := by nofun
  passed := by nofun

/-- With each content appended once, the table owns its contents just in the runs that never overwrite one. -/
theorem owned_iff [DecidableEq ν] (size : Nat) (sized : 0 < size) (calls : List (HashCall ι))
    (distinct : (calls.filterMap callContent).Nodup) :
    Throughout (historyStep keys keys.step) (emptyHistory size sized) calls (Owned keys.seek) ↔
      EachStep (historyStep keys keys.step) (emptyHistory size sized) calls (AppendsNew keys) := by
  have fresh : ∀ before key content after, calls = before ++ HashCall.append key content :: after →
      content ∉ before.filterMap callContent := by
    rintro before key content after rfl member
    simp only [List.filterMap_append, List.filterMap_cons, callContent] at distinct
    exact (List.nodup_append.mp distinct).2.2 content member content (by simp) rfl
  apply @throughout_iff_history _ _ _ _ _ _ _ _
    fun before history => ∃ map, Tended keys (before.filterMap callContent) map history
  · exact ⟨_, tended_init size sized⟩
  · rintro before after history - ⟨map, tended⟩
    exact tended_owned tended
  · rintro before call after history next split ⟨map, tended⟩ met stepped
    rw [List.filterMap_append]
    cases call with
    | append key content => exact tended_append tended (fresh before key content after split) met stepped
    | erase key =>
      obtain ⟨map', kept⟩ := tended_erase tended stepped
      refine ⟨map', ?_⟩
      rw [List.filterMap_cons_none rfl, List.filterMap_nil, List.append_nil]
      exact kept
  · rintro before call after history split ⟨map, tended⟩ unmet
    cases call with
    | append key content => exact overwrite_breaks tended (fresh before key content after split) unmet
    | erase key => exact absurd trivial unmet

end Histories

theorem steps_are_step : hashtblStep64 = integerKey.step ∧ ∀ seed, hashtblStep seed = (stringKey seed).step := by
  refine ⟨?_, fun seed => ?_⟩
  · funext table call
    cases call <;> rfl
  · funext table call
    cases call <;> rfl

/-- The cleaner owns what it should, in both kinds of tables, just where no append finds an item with its key. -/
theorem cleaner_owned_iff (size : Nat) (sized : 0 < size) (integers : List (HashCall (BitVec 64))) (seed : BitVec 32)
    (strings : List (HashCall (Option CString))) :
    ((integers.filterMap callContent).Nodup →
      (Throughout (historyStep integerKey hashtblStep64) (emptyHistory size sized) integers (Owned hashtblSeek64) ↔
        EachStep (historyStep integerKey hashtblStep64) (emptyHistory size sized) integers (AppendsNew integerKey))) ∧
    ((strings.filterMap callContent).Nodup →
      (Throughout (historyStep (stringKey seed) (hashtblStep seed)) (emptyHistory size sized) strings
          (Owned (hashtblSeek seed)) ↔
        EachStep (historyStep (stringKey seed) (hashtblStep seed)) (emptyHistory size sized) strings
          (AppendsNew (stringKey seed)))) := by
  constructor
  · intro distinct
    rw [steps_are_step.1]
    exact owned_iff size sized integers distinct
  · intro distinct
    rw [steps_are_step.2 seed]
    exact owned_iff size sized strings distinct

/-- Once the first content is overwritten, the cleaner has got the second one, which the table still holds. -/
theorem overwritten_not_owned :
    ([.append 1#64 (some 10), .append 1#64 (some 20)] : List (HashCall (BitVec 64))).filterMap callContent =
        [some 10, some 20] ∧
      ¬ Throughout (historyStep integerKey hashtblStep64) (emptyHistory 8209 (by decide))
        [.append 1#64 (some 10), .append 1#64 (some 20)] (Owned hashtblSeek64) := by
  refine ⟨rfl, ?_⟩
  intro throughout
  have run : (runAll (historyStep integerKey hashtblStep64) (emptyHistory 8209 (by decide))
      [.append 1#64 (some 10), .append 1#64 (some 20)]).map
        (fun history => (hashtblSeek64 history.table 1#64, cleanedContents history.table)) =
      .ok (.ok (some 20), [some 20]) := rfl
  obtain ⟨history, reached, shown⟩ := returned_map run
  have owned := throughout _ [] history (List.append_nil _).symm reached
  obtain ⟨found, cleaned⟩ := Prod.mk.inj shown
  apply owned.found 1#64 20 found
  rw [cleaned]
  simp

theorem cleaner_owned_of_new :
    Throughout (historyStep integerKey hashtblStep64) (emptyHistory 2 (by decide))
      [.append 1#64 (some 10), .append 3#64 (some 30), .erase 1#64] (Owned hashtblSeek64) := by
  apply ((cleaner_owned_iff 2 (by decide) _ 0 []).1 (by decide)).mpr
  exact each_of_check (by decide)

end ZapeProof
