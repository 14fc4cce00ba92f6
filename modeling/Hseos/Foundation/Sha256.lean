import Hseos.Foundation.Json

/-! # SHA-256

The digest that `createHash('sha256')` computes, on lists of bytes. Words are
naturals below `2 ^ 32`.
-/

namespace Hseos

namespace Sha256

def word (n : Nat) : Nat := n % 2 ^ 32

def rotateRight (w count : Nat) : Nat := (w >>> count) ||| word (w <<< (32 - count))

/-- The cube-root constants of the rounds. -/
def roundConstants : List Nat :=
  [0x428a2f98, 0x71374491, 0xb5c0fbcf, 0xe9b5dba5, 0x3956c25b, 0x59f111f1, 0x923f82a4, 0xab1c5ed5,
    0xd807aa98, 0x12835b01, 0x243185be, 0x550c7dc3, 0x72be5d74, 0x80deb1fe, 0x9bdc06a7, 0xc19bf174,
    0xe49b69c1, 0xefbe4786, 0x0fc19dc6, 0x240ca1cc, 0x2de92c6f, 0x4a7484aa, 0x5cb0a9dc, 0x76f988da,
    0x983e5152, 0xa831c66d, 0xb00327c8, 0xbf597fc7, 0xc6e00bf3, 0xd5a79147, 0x06ca6351, 0x14292967,
    0x27b70a85, 0x2e1b2138, 0x4d2c6dfc, 0x53380d13, 0x650a7354, 0x766a0abb, 0x81c2c92e, 0x92722c85,
    0xa2bfe8a1, 0xa81a664b, 0xc24b8b70, 0xc76c51a3, 0xd192e819, 0xd6990624, 0xf40e3585, 0x106aa070,
    0x19a4c116, 0x1e376c08, 0x2748774c, 0x34b0bcb5, 0x391c0cb3, 0x4ed8aa4a, 0x5b9cca4f, 0x682e6ff3,
    0x748f82ee, 0x78a5636f, 0x84c87814, 0x8cc70208, 0x90befffa, 0xa4506ceb, 0xbef9a3f7, 0xc67178f2]

/-- The eight words of the chaining value. -/
structure Chain where
  (a b c d e f g h : Nat)
  deriving DecidableEq

def initial : Chain :=
  ⟨0x6a09e667, 0xbb67ae85, 0x3c6ef372, 0xa54ff53a, 0x510e527f, 0x9b05688c, 0x1f83d9ab, 0x5be0cd19⟩

/-- One round with a constant and a word of the message schedule. -/
def round (s : Chain) (constant w : Nat) : Chain :=
  let sum1 := rotateRight s.e 6 ^^^ rotateRight s.e 11 ^^^ rotateRight s.e 25
  let choice := (s.e &&& s.f) ^^^ ((2 ^ 32 - 1 - s.e) &&& s.g)
  let sum0 := rotateRight s.a 2 ^^^ rotateRight s.a 13 ^^^ rotateRight s.a 22
  let majority := (s.a &&& s.b) ^^^ (s.a &&& s.c) ^^^ (s.b &&& s.c)
  let temp := s.h + sum1 + choice + constant + w
  ⟨word (temp + sum0 + majority), s.a, s.b, s.c, word (s.d + temp), s.e, s.f, s.g⟩

/-- The last sixteen words of the schedule move on by one word. -/
def nextSchedule (window : List Nat) : List Nat :=
  let w := fun i => window.getD i 0
  let sigma0 := rotateRight (w 1) 7 ^^^ rotateRight (w 1) 18 ^^^ (w 1 >>> 3)
  let sigma1 := rotateRight (w 14) 17 ^^^ rotateRight (w 14) 19 ^^^ (w 14 >>> 10)
  window.drop 1 ++ [word (w 0 + sigma0 + w 9 + sigma1)]

def rounds : List Nat → Chain → List Nat → Chain
  | [], s, _ => s
  | constant :: constants, s, window =>
      rounds constants (round s constant (window.getD 0 0)) (nextSchedule window)

/-- One block of sixteen words. -/
def compress (s : Chain) (block : List Nat) : Chain :=
  let t := rounds roundConstants s block
  ⟨word (s.a + t.a), word (s.b + t.b), word (s.c + t.c), word (s.d + t.d),
    word (s.e + t.e), word (s.f + t.f), word (s.g + t.g), word (s.h + t.h)⟩

/-- Big-endian bytes of a number. -/
def bytesOf : Nat → Nat → List Nat
  | 0, _ => []
  | count + 1, n => n / 256 ^ count % 256 :: bytesOf count n

def padding (length : Nat) : List Nat :=
  0x80 :: List.replicate ((119 - length % 64) % 64) 0 ++ bytesOf 8 (8 * length)

/-- A list of bytes read as one big-endian number. -/
def numberOf (bytes : List Nat) : Nat := bytes.foldl (fun n b => 256 * n + b) 0

/-- The sixteen words of a block given as a number below `2 ^ 512`. -/
def blockWords (block : Nat) : List Nat :=
  (List.range 16).map fun i => block / 2 ^ (32 * (15 - i)) % 2 ^ 32

/-- The chaining value after `count` blocks of a message given as one number. -/
def blocks (message : Nat) : Nat → Chain → Chain
  | 0, s => s
  | count + 1, s => blocks message count (compress s (blockWords (message / 2 ^ (512 * count) % 2 ^ 512)))

/-! ## Evaluation

Reduction is lazy, and the rounds above grow terms that are evaluated again and again. The same
computation follows with each word evaluated before the next round. -/

/-- `k n`, where the number is evaluated first. -/
def force {α : Type} (n : Nat) (k : Nat → α) : α := Nat.rec (k 0) (fun m _ => k (Nat.succ m)) n

@[simp] theorem force_eq {α : Type} (n : Nat) (k : Nat → α) : force n k = k n := by
  cases n <;> rfl

def rotate (w count rest : Nat) : Nat :=
  Nat.lor (Nat.shiftRight w count) (Nat.mod (Nat.shiftLeft w rest) 4294967296)

def evalTemp (e f g h constant w : Nat) : Nat :=
  Nat.add (Nat.add (Nat.add
    (Nat.add h (Nat.xor (Nat.xor (rotate e 6 26) (rotate e 11 21)) (rotate e 25 7)))
    (Nat.xor (Nat.land e f) (Nat.land (Nat.sub 4294967295 e) g))) constant) w

def evalA (a b c temp : Nat) : Nat :=
  Nat.mod (Nat.add
    (Nat.add temp (Nat.xor (Nat.xor (rotate a 2 30) (rotate a 13 19)) (rotate a 22 10)))
    (Nat.xor (Nat.xor (Nat.land a b) (Nat.land a c)) (Nat.land b c))) 4294967296

def evalSchedule (w0 w1 w9 w14 : Nat) : Nat :=
  Nat.mod (Nat.add (Nat.add
    (Nat.add w0 (Nat.xor (Nat.xor (rotate w1 7 25) (rotate w1 18 14)) (Nat.shiftRight w1 3))) w9)
    (Nat.xor (Nat.xor (rotate w14 17 15) (rotate w14 19 13)) (Nat.shiftRight w14 10))) 4294967296

def evalRounds {α : Type} (k : Chain → α) : List Nat → (a b c d e f g h : Nat) →
    (w0 w1 w2 w3 w4 w5 w6 w7 w8 w9 w10 w11 w12 w13 w14 w15 : Nat) → α
  | [], a, b, c, d, e, f, g, h, _, _, _, _, _, _, _, _, _, _, _, _, _, _, _, _ =>
      k ⟨a, b, c, d, e, f, g, h⟩
  | constant :: constants, a, b, c, d, e, f, g, h,
      w0, w1, w2, w3, w4, w5, w6, w7, w8, w9, w10, w11, w12, w13, w14, w15 =>
      force (evalTemp e f g h constant w0) fun temp =>
      force (evalA a b c temp) fun next =>
      force (Nat.mod (Nat.add d temp) 4294967296) fun fifth =>
      force (evalSchedule w0 w1 w9 w14) fun w16 =>
        evalRounds k constants next a b c fifth e f g
          w1 w2 w3 w4 w5 w6 w7 w8 w9 w10 w11 w12 w13 w14 w15 w16

theorem evalRounds_eq {α : Type} (k : Chain → α) (constants : List Nat) :
    ∀ a b c d e f g h w0 w1 w2 w3 w4 w5 w6 w7 w8 w9 w10 w11 w12 w13 w14 w15,
      evalRounds k constants a b c d e f g h
          w0 w1 w2 w3 w4 w5 w6 w7 w8 w9 w10 w11 w12 w13 w14 w15 =
        k (rounds constants ⟨a, b, c, d, e, f, g, h⟩
          [w0, w1, w2, w3, w4, w5, w6, w7, w8, w9, w10, w11, w12, w13, w14, w15]) := by
  induction constants with
  | nil => intros; rfl
  | cons constant constants ih =>
      intros
      rw [evalRounds]
      simp only [force_eq]
      rw [ih]
      rfl

def forceWords {α : Type} : List Nat → (List Nat → α) → α
  | [], k => k []
  | w :: rest, k => force w fun w => forceWords rest fun rest => k (w :: rest)

@[simp] theorem forceWords_eq {α : Type} (words : List Nat) (k : List Nat → α) :
    forceWords words k = k words := by
  induction words generalizing k with
  | nil => rfl
  | cons w rest ih => simp [forceWords, ih]

/-- `k` of the chaining value after a block. -/
def evalCompress {α : Type} (k : Chain → α) (s : Chain) : List Nat → α
  | [w0, w1, w2, w3, w4, w5, w6, w7, w8, w9, w10, w11, w12, w13, w14, w15] =>
      evalRounds (fun t =>
          forceWords [word (s.a + t.a), word (s.b + t.b), word (s.c + t.c), word (s.d + t.d),
            word (s.e + t.e), word (s.f + t.f), word (s.g + t.g), word (s.h + t.h)] fun words =>
            match words with
            | [a, b, c, d, e, f, g, h] => k ⟨a, b, c, d, e, f, g, h⟩
            | _ => k s)
        roundConstants s.a s.b s.c s.d s.e s.f s.g s.h
        w0 w1 w2 w3 w4 w5 w6 w7 w8 w9 w10 w11 w12 w13 w14 w15
  | block => k (compress s block)

theorem evalCompress_eq {α : Type} (k : Chain → α) (s : Chain) (block : List Nat) :
    evalCompress k s block = k (compress s block) := by
  unfold evalCompress
  split
  · rw [evalRounds_eq, forceWords_eq]
    rfl
  · rfl

def evalBlocks (message : Nat) : Nat → Chain → Chain
  | 0, s => s
  | count + 1, s =>
      forceWords (blockWords (message / 2 ^ (512 * count) % 2 ^ 512))
        (evalCompress (evalBlocks message count) s)

theorem blocks_succ (message count : Nat) (s : Chain) :
    blocks message (count + 1) s =
      blocks message count (compress s (blockWords (message / 2 ^ (512 * count) % 2 ^ 512))) := by
  rw [blocks.eq_def]

theorem evalBlocks_eq (message count : Nat) (s : Chain) :
    evalBlocks message count s = blocks message count s := by
  induction count generalizing s with
  | zero => rfl
  | succ count ih => rw [evalBlocks, forceWords_eq, evalCompress_eq, ih, blocks_succ]

/-! ## Digests -/

def hexText (bytes : List Nat) : List Char :=
  bytes.flatMap fun b => [Nat.digitChar (b / 16 % 16), Nat.digitChar (b % 16)]

/-- The hexadecimal digest of a list of bytes. -/
def hexDigest (bytes : List Nat) : List Char :=
  let message := bytes ++ padding bytes.length
  let s := force (numberOf message) fun number => evalBlocks number (message.length / 64) initial
  hexText ([s.a, s.b, s.c, s.d, s.e, s.f, s.g, s.h].flatMap (bytesOf 4))

/-- The digest is that of the blocks as they are specified. -/
theorem hexDigest_eq (bytes : List Nat) :
    hexDigest bytes =
      let message := bytes ++ padding bytes.length
      let s := blocks (numberOf message) (message.length / 64) initial
      hexText ([s.a, s.b, s.c, s.d, s.e, s.f, s.g, s.h].flatMap (bytesOf 4)) := by
  simp only [hexDigest, force_eq, evalBlocks_eq]

theorem length_hexText (bytes : List Nat) : (hexText bytes).length = 2 * bytes.length := by
  induction bytes with
  | nil => rfl
  | cons b rest ih =>
      simp only [hexText, List.flatMap_cons, List.length_append, List.length_cons,
        List.length_nil] at ih ⊢
      omega

theorem length_bytesOf (count n : Nat) : (bytesOf count n).length = count := by
  induction count with
  | zero => rfl
  | succ count ih => simp [bytesOf, ih]

theorem length_hexDigest (bytes : List Nat) : (hexDigest bytes).length = 64 := by
  simp [hexDigest_eq, length_hexText, length_bytesOf]

/-- The digits a digest is written with. -/
def isHexChar (c : Char) : Bool := c.isDigit || (97 ≤ c.toNat && c.toNat ≤ 102)

theorem isHexChar_digitChar : ∀ n < 16, isHexChar (Nat.digitChar n) = true := by decide

theorem isHexChar_hexDigest (bytes : List Nat) : (hexDigest bytes).all isHexChar = true := by
  simp only [hexDigest_eq, hexText, List.all_eq_true, List.mem_flatMap]
  rintro c ⟨b, -, hc⟩
  simp only [List.mem_cons, List.not_mem_nil, or_false] at hc
  rcases hc with rfl | rfl
  · exact isHexChar_digitChar _ (Nat.mod_lt _ (by omega))
  · exact isHexChar_digitChar _ (Nat.mod_lt _ (by omega))

end Sha256

/-- `createHash('sha256').update(text).digest('hex')`. -/
def sha256Hex (text : List Char) : String := String.ofList (Sha256.hexDigest (utf8 text))

example : sha256Hex "abc".toList =
    "ba7816bf8f01cfea414140de5dae2223b00361a396177a9cb410ff61f20015ad" := by decide +kernel

end Hseos
