import Mathlib.Logic.Function.Basic
import Zape.Machine.Bytes
import Zape.Zig.Text

/-! `ape_hash.c`: tables of chained items that are linked in one list besides. -/
namespace ZapeModel

open Machine

/-- Loops over a bucket fail at memory that is not allocated, or turn more often than items were ever allocated. -/
inductive HashFault
  | wildPointer
  | endless
  deriving DecidableEq, Repr

/-- `void *`; none is `NULL`. -/
abbrev HashContent := Option Nat

/-- `ape_htable_item_t`, with its `content.addrs` and the member of `key` that the type of the table uses. -/
structure HashItem (κ : Type) where
  key : κ
  content : HashContent
  next : Option Nat
  lnext : Option Nat
  lprev : Option Nat := none

/-- `ape_htable_t` and the memory of its items: an address without an item is not allocated yet, or was freed.
    `cleaned` are the items that the cleaner got, the last one first. -/
structure HashTable (κ : Type) where
  size : Nat
  sized : 0 < size
  table : Nat → Option Nat := fun _ => none
  first : Option Nat := none
  node : Nat → Option (HashItem κ) := fun _ => none
  count : Nat := 0
  cleaner : Bool := false
  cleaned : List (HashItem κ) := []

/-- How the operations on one type of table treat an argument `ι` as a key `κ`: those that take no `NULL`, the hash before
    it is reduced, and the comparison with the key of an item. Keys are the same where they fold to the same. -/
structure HashKey (ι κ ν : Type) where
  given : ι → Option κ
  hash : κ → Nat
  same : κ → κ → Bool
  fold : κ → ν
  same_iff : ∀ key other, same key other = true ↔ fold key = fold other

/-- The item that a search comes to, and the one before it in its bucket. -/
structure HashFound (κ : Type) where
  address : Nat
  item : HashItem κ
  prev : Option Nat

variable {ι κ ν : Type}

namespace HashTable

def hashtblInitWithSize (size : Nat) (sized : 0 < size) : HashTable κ := { size, sized }

def hashtblInit : HashTable κ := hashtblInitWithSize 8209 (by decide)

def hashtblSetCleaner (table : HashTable κ) : HashTable κ := { table with cleaner := true }

def write (table : HashTable κ) (address : Nat) (change : HashItem κ → HashItem κ) : Except HashFault (HashTable κ) :=
  match table.node address with
  | none => .error .wildPointer
  | some item => .ok { table with node := Function.update table.node address (some (change item)) }

/-- The cleaner is called, if there is one. What it frees is not part of the table. -/
def clean (table : HashTable κ) (item : HashItem κ) : HashTable κ :=
  if table.cleaner then { table with cleaned := item :: table.cleaned } else table

def setBucket (table : HashTable κ) (index : Nat) (head : Option Nat) : HashTable κ :=
  { table with table := Function.update table.table index head }

def release (table : HashTable κ) (address : Nat) : HashTable κ :=
  { table with node := Function.update table.node address none }

/-- The items from `first` on, in the order of `lnext`. -/
def enumerate (table : HashTable κ) : Nat → Option Nat → Except HashFault (List (HashItem κ))
  | _, none => .ok []
  | 0, some _ => .error .endless
  | left + 1, some address =>
    match table.node address with
    | none => .error .wildPointer
    | some item => (table.enumerate left item.lnext).map (item :: ·)

end HashTable

namespace HashKey

variable (keys : HashKey ι κ ν) (table : HashTable κ)

/-- `key_hash`. -/
def keyHash (key : κ) : Nat := keys.hash key % table.size

/-- The loops over the items of a bucket, over so many of them. -/
def search (key : κ) : Nat → Option Nat → Option Nat → Except HashFault (Option (HashFound κ))
  | _, _, none => .ok none
  | 0, _, some _ => .error .endless
  | left + 1, prev, some address =>
    match table.node address with
    | none => .error .wildPointer
    | some item =>
      if keys.same item.key key then .ok (some { address, item, prev })
      else search key left (some address) item.next

def find (key : κ) : Except HashFault (Option (HashFound κ)) :=
  keys.search table key table.count none (table.table (keys.keyHash table key))

/-- The new item is built before the loop, and freed again where the loop finds an item with the key. -/
def append (key : ι) (structaddr : HashContent) : Except HashFault (HashTable κ) :=
  match keys.given key with
  | none => .ok table
  | some key =>
    let keyHash := keys.keyHash table key
    let hTmp : HashItem κ := { key, content := structaddr, next := table.table keyHash, lnext := table.first }
    (keys.find table key).bind fun
      | some hDbl => (table.clean hTmp).write hDbl.address fun item => { item with content := structaddr }
      | none =>
        let address := table.count
        let linked : Except HashFault (HashTable κ) :=
          match table.first with
          | none => .ok table
          | some first => table.write first fun item => { item with lprev := some address }
        linked.map fun table =>
          { table.setBucket keyHash (some address) with
            node := Function.update table.node address (some hTmp)
            count := table.count + 1
            first := some address }

def erase (key : ι) : Except HashFault (HashTable κ) :=
  match keys.given key with
  | none => .ok table
  | some key =>
    let keyHash := keys.keyHash table key
    (keys.find table key).bind fun
      | none => .ok table
      | some { address, item := hTmp, prev := hPrev } =>
        let table := table.clean hTmp
        let unchained : Except HashFault (HashTable κ) :=
          match hPrev with
          | some hPrev => table.write hPrev fun item => { item with next := hTmp.next }
          | none => .ok (table.setBucket keyHash hTmp.next)
        unchained.bind fun table =>
          let unlinked : Except HashFault (HashTable κ) :=
            match hTmp.lprev with
            | none => .ok { table with first := hTmp.lnext }
            | some lprev => table.write lprev fun item => { item with lnext := hTmp.lnext }
          unlinked.bind fun table =>
            let closed : Except HashFault (HashTable κ) :=
              match hTmp.lnext with
              | none => .ok table
              | some lnext => table.write lnext fun item => { item with lprev := hTmp.lprev }
            closed.map (·.release address)

def seek (key : ι) : Except HashFault HashContent :=
  match keys.given key with
  | none => .ok none
  | some key =>
    (keys.find table key).map fun
      | some hTmp => hTmp.item.content
      | none => none

end HashKey

inductive HashCall (ι : Type)
  | append (key : ι) (structaddr : HashContent)
  | erase (key : ι)
  deriving DecidableEq

def HashKey.step (keys : HashKey ι κ ν) (table : HashTable κ) : HashCall ι → Except HashFault (HashTable κ)
  | .append key structaddr => keys.append table key structaddr
  | .erase key => keys.erase table key

section Integers

def integerKey : HashKey (BitVec 64) (BitVec 64) (BitVec 64) where
  given := some
  hash := BitVec.toNat
  same key other := key == other
  fold := id
  same_iff _ _ := beq_iff_eq

variable (table : HashTable (BitVec 64)) (key : BitVec 64)

def hashtblAppend64 (structaddr : HashContent) : Except HashFault (HashTable (BitVec 64)) :=
  integerKey.append table key structaddr

/-- The key is set to zero before the item is freed. -/
def hashtblErase64 : Except HashFault (HashTable (BitVec 64)) := integerKey.erase table key

def hashtblSeek64 : Except HashFault HashContent := integerKey.seek table key

def hashtblStep64 : HashCall (BitVec 64) → Except HashFault (HashTable (BitVec 64))
  | .append key structaddr => hashtblAppend64 table key structaddr
  | .erase key => hashtblErase64 table key

end Integers

section Strings

/-- The loop of `MurmurHash2` over whole words, and the bytes that are left. -/
def murmurWords (h : BitVec 32) : List Byte → BitVec 32 × List Byte
  | a :: b :: c :: d :: rest =>
    let m := 0x5bd1e995#32
    let k := BitVec.ofNat 32 (littleEndian [a, b, c, d]) * m
    let k := (k ^^^ (k >>> 24)) * m
    murmurWords (h * m ^^^ k) rest
  | rest => (h, rest)

/-- The cases of the `switch` fall through. -/
def murmurTail (h : BitVec 32) : List Byte → BitVec 32
  | [a, b, c] => (h ^^^ (c.setWidth 32 <<< 16) ^^^ (b.setWidth 32 <<< 8) ^^^ a.setWidth 32) * 0x5bd1e995#32
  | [a, b] => (h ^^^ (b.setWidth 32 <<< 8) ^^^ a.setWidth 32) * 0x5bd1e995#32
  | [a] => (h ^^^ a.setWidth 32) * 0x5bd1e995#32
  | _ => h

def murmurHash2 (key : List Byte) (seed : BitVec 32) : BitVec 32 :=
  let (h, rest) := murmurWords (seed ^^^ BitVec.ofNat 32 key.length) key
  let h := murmurTail h rest
  let h := (h ^^^ (h >>> 13)) * 0x5bd1e995#32
  h ^^^ (h >>> 15)

/-- Of strings without their terminator. -/
def strcasecmp : List Byte → List Byte → Int
  | [], [] => 0
  | [], byte :: _ => -(Zig.ascii.toLower byte).toNat
  | byte :: _, [] => (Zig.ascii.toLower byte).toNat
  | byte :: bytes, other :: others =>
    if Zig.ascii.toLower byte = Zig.ascii.toLower other then strcasecmp bytes others
    else (Zig.ascii.toLower byte).toNat - (Zig.ascii.toLower other).toNat

/-- A string that ends in a zero byte, and whose length is an `int`. -/
structure CString where
  bytes : List Byte
  terminated : 0#8 ∉ bytes
  short : bytes.length < 2 ^ 31

theorem toLower_ne_zero {byte : Byte} (nonzero : byte ≠ 0#8) : (Zig.ascii.toLower byte).toNat ≠ 0 := by
  intro zero
  apply nonzero
  apply BitVec.eq_of_toNat_eq
  rw [Zig.ascii.toLower] at zero
  split at zero
  · rw [BitVec.toNat_or, Nat.or_eq_zero_iff] at zero
    exact zero.1
  · exact zero

theorem strcasecmp_eq_zero {bytes others : List Byte} (terminated : 0#8 ∉ bytes) (terminated' : 0#8 ∉ others) :
    strcasecmp bytes others = 0 ↔ Zig.ascii.lowerString bytes = Zig.ascii.lowerString others := by
  induction bytes generalizing others with
  | nil =>
    cases others with
    | nil => simp [strcasecmp]
    | cons other others =>
      have nonzero := @toLower_ne_zero other fun same => terminated' (by simp [same])
      simp [strcasecmp, Zig.ascii.lowerString, nonzero]
  | cons byte bytes ih =>
    cases others with
    | nil =>
      have nonzero := @toLower_ne_zero byte fun same => terminated (by simp [same])
      simp [strcasecmp, Zig.ascii.lowerString, nonzero]
    | cons other others =>
      have later := @ih others (fun member => terminated (by simp [member])) fun member => terminated' (by simp [member])
      rw [strcasecmp]
      split
      · rename_i same
        rw [later]
        simp [Zig.ascii.lowerString, same]
      · rename_i differ
        have apart : (Zig.ascii.toLower byte).toNat ≠ (Zig.ascii.toLower other).toNat :=
          fun same => differ (BitVec.eq_of_toNat_eq same)
        simp only [Zig.ascii.lowerString, List.map_cons, List.cons.injEq, differ, false_and, iff_false]
        omega

/-- The keys of `APE_HASH_STR`, handed over with their length. `ape_hash_str` reduces the hash as an unsigned number. -/
def stringKey (seed : BitVec 32) : HashKey (Option CString) CString (List Byte) where
  given := id
  hash key := (murmurHash2 key.bytes seed).toNat
  same key other := strcasecmp key.bytes other.bytes == 0
  fold key := Zig.ascii.lowerString key.bytes
  same_iff key other := beq_iff_eq.trans (strcasecmp_eq_zero key.terminated other.terminated)

variable (seed : BitVec 32) (table : HashTable CString) (key : Option CString)

def hashtblAppend (structaddr : HashContent) : Except HashFault (HashTable CString) :=
  (stringKey seed).append table key structaddr

def hashtblErase : Except HashFault (HashTable CString) := (stringKey seed).erase table key

def hashtblSeek : Except HashFault HashContent := (stringKey seed).seek table key

def hashtblStep : HashCall (Option CString) → Except HashFault (HashTable CString)
  | .append key structaddr => hashtblAppend seed table key structaddr
  | .erase key => hashtblErase seed table key

end Strings

end ZapeModel
