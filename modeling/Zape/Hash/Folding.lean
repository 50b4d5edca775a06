import Zape.Hash.Mapping
import Zape.Machine.Loop

/-! Keys that differ in case only: the comparison folds them, the hash does not. -/
namespace ZapeProof

open Machine ZapeModel

def foldedName (key : Option CString) : Option (List Byte) := key.map fun key => Zig.ascii.lowerString key.bytes

section Maps

variable {ι ν : Type} [DecidableEq ν] {name : ι → Option ν} {calls : List (HashCall ι)} {spot : ν}

/-- What nothing but `NULL` was appended under is not there. -/
theorem finiteMap_join_none
    (never : ∀ key address, HashCall.append key (some address) ∈ calls → name key ≠ some spot) :
    (finiteMap name calls spot).join = none := by
  induction calls using List.reverseRecOn with
  | nil => rfl
  | append_singleton calls call ih =>
    have earlier := ih fun key address member => never key address (by simp [member])
    rw [finiteMap_snoc]
    by_cases named : name (callKey call) = some spot
    · rw [mapCall_here named]
      cases call with
      | append key content =>
        cases content with
        | none => rfl
        | some address => exact absurd named (never key address (by simp))
      | erase key => rfl
    · rw [mapCall_elsewhere named]
      exact earlier

end Maps

section Strings

variable {seed : BitVec 32} {size : Nat} {calls : List (HashCall (Option CString))}

/-- Every spelling of the key hashes to its bucket. -/
def HashesFolded (seed : BitVec 32) (size : Nat) (key : CString) : Prop :=
  ∀ other : CString, Zig.ascii.lowerString other.bytes = Zig.ascii.lowerString key.bytes →
    (murmurHash2 other.bytes seed).toNat % size = (murmurHash2 key.bytes seed).toNat % size

theorem placed_iff (key : Option CString) (other : CString) :
    placed (stringKey seed) size key = some (place (stringKey seed) size other) ↔
      ∃ given, key = some given ∧ Zig.ascii.lowerString given.bytes = Zig.ascii.lowerString other.bytes ∧
        (murmurHash2 given.bytes seed).toNat % size = (murmurHash2 other.bytes seed).toNat % size := by
  constructor
  · intro spot
    obtain ⟨given, rfl, same⟩ := Option.map_eq_some_iff.mp spot
    exact ⟨given, rfl, congrArg Prod.snd same, congrArg Prod.fst same⟩
  · rintro ⟨given, rfl, folds, hashes⟩
    exact congrArg some (Prod.ext hashes folds)

theorem folded_iff (key : Option CString) (other : CString) :
    foldedName key = some (Zig.ascii.lowerString other.bytes) ↔
      ∃ given, key = some given ∧ Zig.ascii.lowerString given.bytes = Zig.ascii.lowerString other.bytes :=
  Option.map_eq_some_iff

/-- The map that ignores case is the map of the table, where the spellings of what was appended share their buckets. -/
theorem finiteMap_folded (folded : ∀ key address, HashCall.append (some key) (some address) ∈ calls →
      HashesFolded seed size key)
    (key : CString) :
    (finiteMap (placed (stringKey seed) size) calls (place (stringKey seed) size key)).join =
      (finiteMap foldedName calls (Zig.ascii.lowerString key.bytes)).join := by
  by_cases appended : ∃ given address, HashCall.append (some given) (some address) ∈ calls ∧
      Zig.ascii.lowerString given.bytes = Zig.ascii.lowerString key.bytes
  · obtain ⟨given, address, member, same⟩ := appended
    have shared := folded given address member
    apply congrArg Option.join
    apply finiteMap_congr
    intro call _
    rw [placed_iff, folded_iff]
    constructor
    · rintro ⟨other, named, folds, -⟩
      exact ⟨other, named, folds⟩
    · rintro ⟨other, named, folds⟩
      have there := shared other (folds.trans same.symm)
      have here := shared key same.symm
      exact ⟨other, named, folds, there.trans here.symm⟩
  · have never : ∀ given address, HashCall.append (some given) (some address) ∈ calls →
        Zig.ascii.lowerString given.bytes ≠ Zig.ascii.lowerString key.bytes :=
      fun given address member same => appended ⟨given, address, member, same⟩
    rw [finiteMap_join_none, finiteMap_join_none]
    · intro argument address member named
      obtain ⟨given, rfl, folds⟩ := (folded_iff argument key).mp named
      exact never given address member folds
    · intro argument address member named
      obtain ⟨given, rfl, folds, -⟩ := (placed_iff argument key).mp named
      exact never given address member folds

/-- The first key whose spellings are in different buckets is not found under all of them. -/
theorem folded_breaks {key other : CString} {address : Nat}
    (earlier : ∀ key address, HashCall.append (some key) (some address) ∈ calls → HashesFolded seed size key)
    (same : Zig.ascii.lowerString other.bytes = Zig.ascii.lowerString key.bytes)
    (differ : (murmurHash2 other.bytes seed).toNat % size ≠ (murmurHash2 key.bytes seed).toNat % size) :
    (finiteMap (placed (stringKey seed) size) (calls ++ [.append (some key) (some address)])
        (place (stringKey seed) size other)).join = none ∧
      (finiteMap foldedName (calls ++ [.append (some key) (some address)])
        (Zig.ascii.lowerString other.bytes)).join = some address := by
  constructor
  · apply finiteMap_join_none
    intro argument address' member named
    obtain ⟨given, rfl, folds, hashes⟩ := (placed_iff argument other).mp named
    rcases List.mem_append.mp member with before | last
    · have shared := earlier given address' before key (same.symm.trans folds.symm)
      exact differ (hashes.symm.trans shared.symm)
    · cases List.mem_singleton.mp last
      exact differ hashes.symm
  · have named : foldedName (callKey (HashCall.append (some key) (some address))) =
        some (Zig.ascii.lowerString other.bytes) := (folded_iff _ _).mpr ⟨key, rfl, same.symm⟩
    rw [finiteMap_snoc, mapCall_here named]
    rfl

/-- After all calls the table is one map that ignores case, just if every key appended with a content has all its spellings
    in one bucket. -/
theorem hashtbl_folds_iff (seed : BitVec 32) (size : Nat) (sized : 0 < size) (calls : List (HashCall (Option CString))) :
    (∀ before after, calls = before ++ after →
      ∃ table, runAll (hashtblStep seed) (HashTable.hashtblInitWithSize size sized) before = .ok table ∧
        ∀ key : CString, hashtblSeek seed table (some key) =
          .ok (finiteMap foldedName before (Zig.ascii.lowerString key.bytes)).join) ↔
      ∀ key address, HashCall.append (some key) (some address) ∈ calls → HashesFolded seed size key := by
  have seeks : ∀ before, ∃ table, runAll (hashtblStep seed) (HashTable.hashtblInitWithSize size sized) before = .ok table ∧
      ∀ key : CString, hashtblSeek seed table (some key) =
        .ok (finiteMap (placed (stringKey seed) size) before (place (stringKey seed) size key)).join := by
    intro before
    have same : hashtblStep seed = (stringKey seed).step := by
      funext table call
      cases call <;> rfl
    obtain ⟨table, reached, tabulates, rfl⟩ := @run_init _ _ _ _ (stringKey seed) size sized before
    exact ⟨table, same ▸ reached, fun key => seek_map tabulates (some key)⟩
  constructor
  · intro folds
    have upto : ∀ before after, calls = before ++ after →
        ∀ key address, HashCall.append (some key) (some address) ∈ before → HashesFolded seed size key := by
      intro before
      induction before using List.reverseRecOn with
      | nil => nofun
      | append_singleton before call ih =>
        intro after split key address member
        have earlier := ih (call :: after) (by rw [split, List.append_assoc, List.singleton_append])
        rcases List.mem_append.mp member with old | last
        · exact earlier key address old
        · cases List.mem_singleton.mp last
          by_contra apart
          obtain ⟨other, apart⟩ := not_forall.mp apart
          obtain ⟨same, differ⟩ := Classical.not_imp.mp apart
          obtain ⟨table, reached, folded⟩ := folds _ after split
          obtain ⟨table', reached', sought⟩ := seeks (before ++ [.append (some key) (some address)])
          cases reached.symm.trans reached'
          have broken := @folded_breaks seed size before key other address earlier same differ
          have both := (folded other).symm.trans (sought other)
          rw [broken.1, broken.2] at both
          cases both
    intro key address member
    exact upto calls [] (List.append_nil _).symm key address member
  · intro folded before after split
    obtain ⟨table, reached, sought⟩ := seeks before
    refine ⟨table, reached, ?_⟩
    intro key
    rw [sought key, finiteMap_folded]
    intro key address member
    exact folded key address (split ▸ List.mem_append_left _ member)

def lowerCaseA : CString := { bytes := Zig.text "a", terminated := by decide, short := by decide }

def upperCaseA : CString := { bytes := Zig.text "A", terminated := by decide, short := by decide }

/-- What was appended under a small letter is not found under the capital one. -/
theorem capital_not_found :
    ¬ ∀ before after, [HashCall.append (some lowerCaseA) (some 10)] = before ++ after →
      ∃ table, runAll (hashtblStep 0#32) (HashTable.hashtblInitWithSize 8209 (by decide)) before = .ok table ∧
        ∀ key : CString, hashtblSeek 0#32 table (some key) =
          .ok (finiteMap foldedName before (Zig.ascii.lowerString key.bytes)).join := by
  intro folds
  obtain ⟨table, reached, folded⟩ := folds [.append (some lowerCaseA) (some 10)] [] rfl
  have run : (runAll (hashtblStep 0#32) (HashTable.hashtblInitWithSize 8209 (by decide))
      [.append (some lowerCaseA) (some 10)]).map (fun table => hashtblSeek 0#32 table (some upperCaseA)) = .ok (.ok none) := by
    decide
  obtain ⟨table', reached', sought⟩ := returned_map run
  cases reached.symm.trans reached'
  cases sought.symm.trans (folded upperCaseA)

theorem capital_found :
    ∃ table, runAll (hashtblStep 0#32) (HashTable.hashtblInitWithSize 1 (by decide))
        [.append (some lowerCaseA) (some 10)] = .ok table ∧
      hashtblSeek 0#32 table (some upperCaseA) = .ok (some 10) := by
  have folded := (hashtbl_folds_iff 0#32 1 (by decide) [.append (some lowerCaseA) (some 10)]).mpr
    fun key address _ other _ => (Nat.mod_one _).trans (Nat.mod_one _).symm
  obtain ⟨table, reached, sought⟩ := folded [.append (some lowerCaseA) (some 10)] [] rfl
  exact ⟨table, reached, sought upperCaseA⟩

end Strings

end ZapeProof
