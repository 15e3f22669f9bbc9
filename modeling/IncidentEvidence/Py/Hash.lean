import Mathlib.Data.Set.Function
import IncidentEvidence.Py.Str

/-! # SHA-256

    The results take the digest function as a parameter (`Sha256`): none of them
    depends on how it works. Where one needs that there are no collisions, the
    hypothesis speaks about the messages that were hashed (`CollisionFree`),
    which a function with 256-bit values can satisfy. `sha256` is the standard's
    own function, the instance to run.
-/

namespace Py

/-- A digest of 32 bytes. -/
structure Digest where
  bytes : List UInt8
  size : bytes.length = 32
  deriving DecidableEq

/-- `hashlib.sha256`. -/
class Sha256 where
  digest : List UInt8 → Digest

/-- No two different messages of a set have the same digest. -/
def CollisionFree [Sha256] (messages : Set (List UInt8)) : Prop :=
  Set.InjOn Sha256.digest messages

/-- `hexdigest()`: two lower-case hexadecimal digits for each byte. -/
def Digest.hex (d : Digest) : Str := d.bytes.flatMap fun b => fixedDigits 16 2 b.toNat

theorem Digest.hex_length (d : Digest) : d.hex.length = 64 := by
  have : ∀ l : List UInt8, (l.flatMap fun b => fixedDigits 16 2 b.toNat).length = 2 * l.length := by
    intro l
    induction l with
    | nil => rfl
    | cons b l ih => simp [ih]; omega
  rw [Digest.hex, this, d.size]

theorem Digest.hex_injective : Function.Injective Digest.hex := by
  have key : ∀ l l' : List UInt8, (l.flatMap fun b => fixedDigits 16 2 b.toNat) =
      (l'.flatMap fun b => fixedDigits 16 2 b.toNat) → l = l' := by
    intro l
    induction l with
    | nil =>
      intro l' h
      cases l' with
      | nil => rfl
      | cons b l' =>
        have hlen := congrArg List.length h
        simp only [List.flatMap_nil, List.flatMap_cons, List.length_nil, List.length_append,
          fixedDigits_length] at hlen
        omega
    | cons b l ih =>
      intro l' h
      cases l' with
      | nil =>
        have hlen := congrArg List.length h
        simp only [List.flatMap_nil, List.flatMap_cons, List.length_nil, List.length_append,
          fixedDigits_length] at hlen
        omega
      | cons c l' =>
        simp only [List.flatMap_cons] at h
        obtain ⟨hb, hl⟩ := List.append_inj h (by simp)
        have hbc : b.toNat = c.toNat := by
          apply fixedDigits_inj (by decide) (by decide) _ _ hb
          · exact b.toNat_lt
          · exact c.toNat_lt
        rw [UInt8.toNat_inj.mp hbc, ih l' hl]
  rintro ⟨a, _⟩ ⟨b, _⟩ h
  simp only [Digest.mk.injEq]
  exact key a b h

/-- A lower-case hexadecimal digit. -/
def CodePoint.isHexDigit (c : CodePoint) : Bool := (str "0123456789abcdef").contains c

theorem isHexDigit_of_mem_hex {d : Digest} {c : CodePoint} (h : c ∈ d.hex) :
    c.isHexDigit = true := by
  have hdigit : ∀ k < 16, (CodePoint.scalar (Nat.digitChar k)).isHexDigit = true := by decide
  obtain ⟨b, _, hc⟩ := List.mem_flatMap.mp h
  simp only [fixedDigits, digit, List.nil_append, List.mem_append, List.mem_singleton] at hc
  rcases hc with rfl | rfl <;> exact hdigit _ (Nat.mod_lt _ (by decide))

/-! ### The standard function -/

namespace Sha256

/-- The round constants. -/
def roundConstants : List UInt32 :=
  [ 0x428a2f98, 0x71374491, 0xb5c0fbcf, 0xe9b5dba5, 0x3956c25b, 0x59f111f1, 0x923f82a4, 0xab1c5ed5,
    0xd807aa98, 0x12835b01, 0x243185be, 0x550c7dc3, 0x72be5d74, 0x80deb1fe, 0x9bdc06a7, 0xc19bf174,
    0xe49b69c1, 0xefbe4786, 0x0fc19dc6, 0x240ca1cc, 0x2de92c6f, 0x4a7484aa, 0x5cb0a9dc, 0x76f988da,
    0x983e5152, 0xa831c66d, 0xb00327c8, 0xbf597fc7, 0xc6e00bf3, 0xd5a79147, 0x06ca6351, 0x14292967,
    0x27b70a85, 0x2e1b2138, 0x4d2c6dfc, 0x53380d13, 0x650a7354, 0x766a0abb, 0x81c2c92e, 0x92722c85,
    0xa2bfe8a1, 0xa81a664b, 0xc24b8b70, 0xc76c51a3, 0xd192e819, 0xd6990624, 0xf40e3585, 0x106aa070,
    0x19a4c116, 0x1e376c08, 0x2748774c, 0x34b0bcb5, 0x391c0cb3, 0x4ed8aa4a, 0x5b9cca4f, 0x682e6ff3,
    0x748f82ee, 0x78a5636f, 0x84c87814, 0x8cc70208, 0x90befffa, 0xa4506ceb, 0xbef9a3f7, 0xc67178f2]

/-- The eight working variables. -/
structure State where
  a : UInt32
  b : UInt32
  c : UInt32
  d : UInt32
  e : UInt32
  f : UInt32
  g : UInt32
  h : UInt32

def initial : State :=
  ⟨0x6a09e667, 0xbb67ae85, 0x3c6ef372, 0xa54ff53a,
   0x510e527f, 0x9b05688c, 0x1f83d9ab, 0x5be0cd19⟩

def rotr (x : UInt32) (n : UInt32) : UInt32 := x >>> n ||| x <<< (32 - n)

/-- A message padded to whole blocks: a one bit, zeros, and its length in bits. -/
def pad (message : List UInt8) : List UInt8 :=
  let bits := 8 * message.length
  let zeros := (119 - message.length % 64) % 64
  let length := [56, 48, 40, 32, 24, 16, 8, 0].map fun shift => (bits >>> shift).toUInt8
  message ++ 0x80 :: (List.replicate zeros 0 ++ length)

/-- The big-endian words of a block. -/
def words : List UInt8 → List UInt32
  | a :: b :: c :: d :: rest =>
    (a.toUInt32 <<< 24 ||| b.toUInt32 <<< 16 ||| c.toUInt32 <<< 8 ||| d.toUInt32) :: words rest
  | _ => []

/-- The next word of the message schedule, from the last sixteen. -/
def nextWord (window : List UInt32) : UInt32 :=
  let w := fun i => window.getD i 0
  let s0 := rotr (w 1) 7 ^^^ rotr (w 1) 18 ^^^ w 1 >>> 3
  let s1 := rotr (w 14) 17 ^^^ rotr (w 14) 19 ^^^ w 14 >>> 10
  w 0 + s0 + w 9 + s1

/-- One round for each constant, with the schedule computed along the way. -/
def rounds : List UInt32 → List UInt32 → State → State
  | k :: ks, window, s =>
    let s1 := rotr s.e 6 ^^^ rotr s.e 11 ^^^ rotr s.e 25
    let ch := s.e &&& s.f ^^^ ~~~s.e &&& s.g
    let t1 := s.h + s1 + ch + k + window.getD 0 0
    let s0 := rotr s.a 2 ^^^ rotr s.a 13 ^^^ rotr s.a 22
    let maj := s.a &&& s.b ^^^ s.a &&& s.c ^^^ s.b &&& s.c
    rounds ks (window.tail ++ [nextWord window])
      ⟨t1 + (s0 + maj), s.a, s.b, s.c, s.d + t1, s.e, s.f, s.g⟩
  | [], _, s => s

def compress (s : State) (block : List UInt8) : State :=
  let t := rounds roundConstants (words block) s
  ⟨s.a + t.a, s.b + t.b, s.c + t.c, s.d + t.d, s.e + t.e, s.f + t.f, s.g + t.g, s.h + t.h⟩

/-- The blocks of a padded message, one by one. -/
def absorb : Nat → List UInt8 → State → State
  | 0, _, s => s
  | blocks + 1, message, s => absorb blocks (message.drop 64) (compress s (message.take 64))

def bytesOf (x : UInt32) : List UInt8 :=
  [(x >>> 24).toUInt8, (x >>> 16).toUInt8, (x >>> 8).toUInt8, x.toUInt8]

end Sha256

open Sha256 in
/-- `hashlib.sha256(message).digest()`. -/
def sha256 (message : List UInt8) : Digest :=
  let padded := pad message
  let s := absorb (padded.length / 64) padded initial
  ⟨bytesOf s.a ++ bytesOf s.b ++ bytesOf s.c ++ bytesOf s.d ++
    bytesOf s.e ++ bytesOf s.f ++ bytesOf s.g ++ bytesOf s.h, rfl⟩

instance : Sha256 := ⟨sha256⟩

example : (sha256 [97, 98, 99]).hex =
    str "ba7816bf8f01cfea414140de5dae2223b00361a396177a9cb410ff61f20015ad" := by
  decide +kernel

end Py
