import Zape.Zig.Text

/-! `std.crypto.hash.Sha1` and the standard alphabet of `std.base64`. -/
namespace Zig

open Machine

namespace Sha1

abbrev Word := BitVec 32

structure Digest where
  a : Word := 0x67452301#32
  b : Word := 0xEFCDAB89#32
  c : Word := 0x98BADCFE#32
  d : Word := 0x10325476#32
  e : Word := 0xC3D2E1F0#32

def mix (round : Nat) (b c d : Word) : Word :=
  if round < 20 then (b &&& c) ||| (~~~b &&& d)
  else if round < 40 then b ^^^ c ^^^ d
  else if round < 60 then (b &&& c) ||| (b &&& d) ||| (c &&& d)
  else b ^^^ c ^^^ d

def constant (round : Nat) : Word :=
  if round < 20 then 0x5A827999#32
  else if round < 40 then 0x6ED9EBA1#32
  else if round < 60 then 0x8F1BBCDC#32
  else 0xCA62C1D6#32

/-- `window` holds the sixteen words of the schedule that start at the current round. -/
def rounds : Nat → Nat → List Word → Digest → Digest
  | 0, _, _, digest => digest
  | left + 1, round, window, digest =>
    let word := window.getD 0 0#32
    let next := (window.getD 13 0#32 ^^^ window.getD 8 0#32 ^^^ window.getD 2 0#32 ^^^ word).rotateLeft 1
    let mixed := digest.a.rotateLeft 5 + mix round digest.b digest.c digest.d + digest.e + constant round + word
    rounds left (round + 1) (window.tail ++ [next])
      { a := mixed, b := digest.a, c := digest.b.rotateLeft 30, d := digest.c, e := digest.d }

def words : List Byte → List Word
  | w :: x :: y :: z :: bytes => BitVec.ofNat 32 (bigEndian [w, x, y, z]) :: words bytes
  | _ => []

def compress (digest : Digest) (block : List Byte) : Digest :=
  let mixed := rounds 80 0 (words block) digest
  { a := digest.a + mixed.a, b := digest.b + mixed.b, c := digest.c + mixed.c, d := digest.d + mixed.d,
    e := digest.e + mixed.e }

def pad (message : List Byte) : List Byte :=
  message ++ 0x80#8 :: List.replicate ((119 - message.length % 64) % 64) 0#8 ++
    bigEndianBytes 8 (8 * message.length)

def compressBlocks : Nat → List Byte → Digest → Digest
  | 0, _, digest => digest
  | left + 1, bytes, digest => compressBlocks left (bytes.drop 64) (compress digest (bytes.take 64))

def hash (message : List Byte) : List Byte :=
  let padded := pad message
  let digest := compressBlocks (padded.length / 64) padded {}
  [digest.a, digest.b, digest.c, digest.d, digest.e].flatMap fun word => bigEndianBytes 4 word.toNat

@[simp] theorem hash_length (message : List Byte) : (hash message).length = 20 := by
  simp [hash]

end Sha1

namespace Base64

def alphabet : List Byte := text "ABCDEFGHIJKLMNOPQRSTUVWXYZabcdefghijklmnopqrstuvwxyz0123456789+/"

def character (index : Nat) : Byte := alphabet.getD index 0x3D#8

def encode : List Byte → List Byte
  | [] => []
  | [x] => [character (x.toNat / 4), character (x.toNat % 4 * 16), 0x3D#8, 0x3D#8]
  | [x, y] =>
    [character (x.toNat / 4), character (x.toNat % 4 * 16 + y.toNat / 16), character (y.toNat % 16 * 4), 0x3D#8]
  | x :: y :: z :: bytes =>
    character (x.toNat / 4) :: character (x.toNat % 4 * 16 + y.toNat / 16) ::
      character (y.toNat % 16 * 4 + z.toNat / 64) :: character (z.toNat % 64) :: encode bytes

end Base64

example : Base64.encode (Sha1.hash (text "dGhlIHNhbXBsZSBub25jZQ==258EAFA5-E914-47DA-95CA-C5AB0DC85B11")) =
    text "s3pPLMBiTxaQ9kYGzzhZRbK+xOo=" := by
  decide +kernel

end Zig
