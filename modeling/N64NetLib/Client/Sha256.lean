import Mathlib.Data.List.GetD
import N64NetLib.Client.RomHash
import N64NetLib.Lib.Blocks

/-! # The hash of a file in the browser

`sha256_init`, `sha256_update` and `sha256_final`, and `is_samerom` over them. The context has a buffer of
64 bytes, which nothing clears at the start; a full buffer is transformed and its bits are counted, and
at the end the buffer is padded, with one block more if the marker leaves no room for the length.

`sha256` is the hash of a message as the standard has it: the message is padded to whole blocks at once
and the blocks are compressed one after the other. The code computes it, however the message is cut into
updates and whatever was in the buffer, if every update has less than `2 ^ 32` bytes; another never
returns, for its counter has 32 bits (`hashOf_streams`). In `is_samerom` the number of bytes has 32
bits too, so it always returns, and with the hash of as many bytes of the file (`isSamerom_iff`). -/

namespace N64NetLib.Client.Sha256

open N64NetLib.Lib.BigEndian N64NetLib.Lib.Blocks N64NetLib.Client.ServerInfo
open N64NetLib.Client.RomHash N64NetLib.Client.ServerTrip N64NetLib.Master.Rom

/-! ### The code -/

/-- `ROTRIGHT`. -/
def rotright (a : BitVec 32) (b : ℕ) : BitVec 32 := a >>> b ||| a <<< (32 - b)

/-- `CH`. -/
def ch (x y z : BitVec 32) : BitVec 32 := (x &&& y) ^^^ (~~~x &&& z)

/-- `MAJ`. -/
def maj (x y z : BitVec 32) : BitVec 32 := (x &&& y) ^^^ (x &&& z) ^^^ (y &&& z)

/-- `EP0`. -/
def ep0 (x : BitVec 32) : BitVec 32 := rotright x 2 ^^^ rotright x 13 ^^^ rotright x 22

/-- `EP1`. -/
def ep1 (x : BitVec 32) : BitVec 32 := rotright x 6 ^^^ rotright x 11 ^^^ rotright x 25

/-- `SIG0`. -/
def sig0 (x : BitVec 32) : BitVec 32 := rotright x 7 ^^^ rotright x 18 ^^^ x >>> 3

/-- `SIG1`. -/
def sig1 (x : BitVec 32) : BitVec 32 := rotright x 17 ^^^ rotright x 19 ^^^ x >>> 10

/-- `k`. -/
def k : List (BitVec 32) :=
  [0x428a2f98, 0x71374491, 0xb5c0fbcf, 0xe9b5dba5, 0x3956c25b, 0x59f111f1, 0x923f82a4, 0xab1c5ed5,
   0xd807aa98, 0x12835b01, 0x243185be, 0x550c7dc3, 0x72be5d74, 0x80deb1fe, 0x9bdc06a7, 0xc19bf174,
   0xe49b69c1, 0xefbe4786, 0x0fc19dc6, 0x240ca1cc, 0x2de92c6f, 0x4a7484aa, 0x5cb0a9dc, 0x76f988da,
   0x983e5152, 0xa831c66d, 0xb00327c8, 0xbf597fc7, 0xc6e00bf3, 0xd5a79147, 0x06ca6351, 0x14292967,
   0x27b70a85, 0x2e1b2138, 0x4d2c6dfc, 0x53380d13, 0x650a7354, 0x766a0abb, 0x81c2c92e, 0x92722c85,
   0xa2bfe8a1, 0xa81a664b, 0xc24b8b70, 0xc76c51a3, 0xd192e819, 0xd6990624, 0xf40e3585, 0x106aa070,
   0x19a4c116, 0x1e376c08, 0x2748774c, 0x34b0bcb5, 0x391c0cb3, 0x4ed8aa4a, 0x5b9cca4f, 0x682e6ff3,
   0x748f82ee, 0x78a5636f, 0x84c87814, 0x8cc70208, 0x90befffa, 0xa4506ceb, 0xbef9a3f7, 0xc67178f2]

/-- Eight words: `state`, or the variables `a` to `h`. -/
structure Words where
  a : BitVec 32
  b : BitVec 32
  c : BitVec 32
  d : BitVec 32
  e : BitVec 32
  f : BitVec 32
  g : BitVec 32
  h : BitVec 32
deriving DecidableEq

/-- `SHA256_CTX`. -/
structure Ctx where
  data : Vector UInt8 64
  datalen : ℕ
  bitlen : BitVec 64
  state : Words
deriving DecidableEq

/-- What ends a computation without a result: a byte behind the buffer is written, or it goes on for
longer than it was given. -/
inductive Fault
  | outOfBounds
  | outOfFuel
deriving DecidableEq

/-- The first loop of `sha256_transform`: the sixteen words of a block. -/
def blockWords (data : Vector UInt8 64) : List (BitVec 32) :=
  (List.range 16).map fun i =>
    (data.toList.getD (4 * i) 0).toBitVec.setWidth 32 <<< 24 |||
      (data.toList.getD (4 * i + 1) 0).toBitVec.setWidth 32 <<< 16 |||
      (data.toList.getD (4 * i + 2) 0).toBitVec.setWidth 32 <<< 8 |||
      (data.toList.getD (4 * i + 3) 0).toBitVec.setWidth 32

/-- A step of the second loop. -/
def nextWord (m : List (BitVec 32)) (i : ℕ) : List (BitVec 32) :=
  m ++ [sig1 (m.getD (i - 2) 0) + m.getD (i - 7) 0 + sig0 (m.getD (i - 15) 0) + m.getD (i - 16) 0]

/-- `m` in `sha256_transform`. -/
def schedule (data : Vector UInt8 64) : List (BitVec 32) := (List.range' 16 48).foldl nextWord (blockWords data)

/-- A step of the third loop. -/
def round (m : List (BitVec 32)) (v : Words) (i : ℕ) : Words :=
  let t1 := v.h + ep1 v.e + ch v.e v.f v.g + k.getD i 0 + m.getD i 0
  let t2 := ep0 v.a + maj v.a v.b v.c
  ⟨t1 + t2, v.a, v.b, v.c, v.d + t1, v.e, v.f, v.g⟩

/-- `sha256_transform`, as what it makes of `state`. -/
def transform (state : Words) (data : Vector UInt8 64) : Words :=
  let v := (List.range 64).foldl (round (schedule data)) state
  ⟨state.a + v.a, state.b + v.b, state.c + v.c, state.d + v.d, state.e + v.e, state.f + v.f,
    state.g + v.g, state.h + v.h⟩

/-- `sha256_init`, of a context with some bytes in its buffer. -/
def init (data : Vector UInt8 64) : Ctx :=
  ⟨data, 0, 0, ⟨0x6a09e667, 0xbb67ae85, 0x3c6ef372, 0xa54ff53a, 0x510e527f, 0x9b05688c, 0x1f83d9ab,
    0x5be0cd19⟩⟩

/-- `data[i] = b`. -/
def store (data : Vector UInt8 64) (i : ℕ) (b : UInt8) : Except Fault (Vector UInt8 64) :=
  if h : i < 64 then .ok (data.set i b) else .error .outOfBounds

/-- The body of the loop in `sha256_update`. -/
def updateByte (ctx : Ctx) (b : UInt8) : Except Fault Ctx := do
  let data ← store ctx.data ctx.datalen b
  if ctx.datalen + 1 = 64 then
    return ⟨data, 0, ctx.bitlen + 512, transform ctx.state data⟩
  else
    return ⟨data, ctx.datalen + 1, ctx.bitlen, ctx.state⟩

/-- The loop of `sha256_update`: `i` has 32 bits, `len` has more. -/
def updateLoop (bytes : List UInt8) : ℕ → BitVec 32 → Ctx → Except Fault Ctx
  | 0, _, _ => .error .outOfFuel
  | fuel + 1, i, ctx =>
    if i.toNat < bytes.length then do
      let ctx ← updateByte ctx (bytes.getD i.toNat 0)
      updateLoop bytes fuel (i + 1) ctx
    else .ok ctx

/-- `sha256_update`. -/
def update (fuel : ℕ) (ctx : Ctx) (bytes : List UInt8) : Except Fault Ctx := updateLoop bytes fuel 0 ctx

/-- `while (i < stop) data[i++] = 0x00`, for a `stop` within the buffer. -/
def fill (data : Vector UInt8 64) (i stop : ℕ) : Vector UInt8 64 :=
  (List.range' i (stop - i)).foldl (fun data j => data.setIfInBounds j 0) data

/-- The lines of `sha256_final` that write the length. -/
def storeLength (data : Vector UInt8 64) (bitlen : BitVec 64) : Vector UInt8 64 :=
  ((((((((data.set 63 (UInt8.ofBitVec (bitlen.setWidth 8))).set 62
    (UInt8.ofBitVec ((bitlen >>> 8).setWidth 8))).set 61
    (UInt8.ofBitVec ((bitlen >>> 16).setWidth 8))).set 60
    (UInt8.ofBitVec ((bitlen >>> 24).setWidth 8))).set 59
    (UInt8.ofBitVec ((bitlen >>> 32).setWidth 8))).set 58
    (UInt8.ofBitVec ((bitlen >>> 40).setWidth 8))).set 57
    (UInt8.ofBitVec ((bitlen >>> 48).setWidth 8))).set 56
    (UInt8.ofBitVec ((bitlen >>> 56).setWidth 8)))

/-- `(word >> (24 - i * 8)) & 0xff`. -/
def outputByte (word : BitVec 32) (i : ℕ) : UInt8 :=
  UInt8.ofBitVec ((word >>> (24 - i * 8) &&& 0x000000ff).setWidth 8)

/-- A step of the last loop of `sha256_final`. -/
def outputStep (state : Words) (hash : Vector UInt8 32) (i : ℕ) : Vector UInt8 32 :=
  (((((((hash.setIfInBounds i (outputByte state.a i)).setIfInBounds (i + 4) (outputByte state.b i)).setIfInBounds
    (i + 8) (outputByte state.c i)).setIfInBounds (i + 12) (outputByte state.d i)).setIfInBounds
    (i + 16) (outputByte state.e i)).setIfInBounds (i + 20) (outputByte state.f i)).setIfInBounds
    (i + 24) (outputByte state.g i)).setIfInBounds (i + 28) (outputByte state.h i)

/-- The two cases of `sha256_final`, once the marker is in the buffer. -/
def padBuffer (state : Words) (data : Vector UInt8 64) (datalen : ℕ) : Vector UInt8 64 × Words :=
  if datalen < 56 then (fill data (datalen + 1) 56, state)
  else
    let data := fill data (datalen + 1) 64
    (fill data 0 56, transform state data)

/-- `sha256_final`. -/
def final (ctx : Ctx) (hash : Vector UInt8 32) : Except Fault (Vector UInt8 32) := do
  let data ← store ctx.data ctx.datalen 0x80
  let (data, state) := padBuffer ctx.state data ctx.datalen
  let bitlen := ctx.bitlen + BitVec.ofNat 64 (ctx.datalen * 8)
  let state := transform state (storeLength data bitlen)
  return (List.range 4).foldl (outputStep state) hash

/-- Some updates after `sha256_init`, and `sha256_final`. -/
def hashOf (fuel : ℕ) (data : Vector UInt8 64) (hash : Vector UInt8 32) (chunks : List (List UInt8)) :
    Except Fault (Vector UInt8 32) := do
  let ctx ← chunks.foldlM (update fuel) (init data)
  final ctx hash

/-! ### The standard -/

/-- The functions of the standard that rotate. -/
def bigSigma0 (x : BitVec 32) : BitVec 32 := x.rotateRight 2 ^^^ x.rotateRight 13 ^^^ x.rotateRight 22
def bigSigma1 (x : BitVec 32) : BitVec 32 := x.rotateRight 6 ^^^ x.rotateRight 11 ^^^ x.rotateRight 25
def smallSigma0 (x : BitVec 32) : BitVec 32 := x.rotateRight 7 ^^^ x.rotateRight 18 ^^^ x >>> 3
def smallSigma1 (x : BitVec 32) : BitVec 32 := x.rotateRight 17 ^^^ x.rotateRight 19 ^^^ x >>> 10

/-- Word `t` of a block, the most significant byte first. -/
def wordAt (block : List UInt8) (t : ℕ) : BitVec 32 :=
  ofBe32 (block.getD (4 * t) 0) (block.getD (4 * t + 1) 0) (block.getD (4 * t + 2) 0) (block.getD (4 * t + 3) 0)

/-- Word `t` of the message schedule of a block. -/
def messageWord (block : List UInt8) (t : ℕ) : BitVec 32 :=
  if t < 16 then wordAt block t
  else smallSigma1 (messageWord block (t - 2)) + messageWord block (t - 7) +
    smallSigma0 (messageWord block (t - 15)) + messageWord block (t - 16)
termination_by t

/-- Round `t` on the working variables. -/
def roundStep (block : List UInt8) (v : Words) (t : ℕ) : Words :=
  let t1 := v.h + bigSigma1 v.e + ch v.e v.f v.g + k.getD t 0 + messageWord block t
  ⟨t1 + (bigSigma0 v.a + maj v.a v.b v.c), v.a, v.b, v.c, v.d + t1, v.e, v.f, v.g⟩

/-- The compression of a block into the intermediate hash value. -/
def compress (hash : Words) (block : List UInt8) : Words :=
  let v := (List.range 64).foldl (roundStep block) hash
  ⟨hash.a + v.a, hash.b + v.b, hash.c + v.c, hash.d + v.d, hash.e + v.e, hash.f + v.f,
    hash.g + v.g, hash.h + v.h⟩

/-- The initial hash value. -/
def initialHash : Words :=
  ⟨0x6a09e667, 0xbb67ae85, 0x3c6ef372, 0xa54ff53a, 0x510e527f, 0x9b05688c, 0x1f83d9ab, 0x5be0cd19⟩

/-- The eight bytes of a 64-bit word, the most significant first. -/
def be64 (x : BitVec 64) : List UInt8 :=
  [byteOf x 7, byteOf x 6, byteOf x 5, byteOf x 4, byteOf x 3, byteOf x 2, byteOf x 1, byteOf x 0]

/-- The number of zero bytes in the padding of a message of so many bytes. -/
def paddingZeros (length : ℕ) : ℕ := (119 - length % 64) % 64

/-- The padded message: a marker, zeros, and the length in bits. -/
def pad (message : List UInt8) : List UInt8 :=
  message ++ 0x80 :: List.replicate (paddingZeros message.length) 0 ++
    be64 (BitVec.ofNat 64 (8 * message.length))

/-- The digest: the words in network order. -/
def digest (hash : Words) : List UInt8 :=
  be32 hash.a ++ be32 hash.b ++ be32 hash.c ++ be32 hash.d ++ be32 hash.e ++ be32 hash.f ++ be32 hash.g ++
    be32 hash.h

/-- **SHA-256.** The standard defines it for messages of less than `2 ^ 61` bytes. -/
def sha256 (message : List UInt8) : List UInt8 := digest (full 64 compress initialHash (pad message))

/-- The zeros are the fewest that complete a block. -/
theorem paddingZeros_least (length zeros : ℕ) :
    (length + 1 + paddingZeros length + 8) % 64 = 0 ∧
      ((length + 1 + zeros + 8) % 64 = 0 → paddingZeros length ≤ zeros) := by
  unfold paddingZeros
  omega

/-! ### A block -/

theorem rotright_eq {a : BitVec 32} {b : ℕ} (h : b < 32) : rotright a b = a.rotateRight b := by
  rw [rotright, BitVec.rotateRight_def, Nat.mod_eq_of_lt h]

theorem ep0_eq (x : BitVec 32) : ep0 x = bigSigma0 x := by
  rw [ep0, bigSigma0, rotright_eq (by omega), rotright_eq (by omega), rotright_eq (by omega)]

theorem ep1_eq (x : BitVec 32) : ep1 x = bigSigma1 x := by
  rw [ep1, bigSigma1, rotright_eq (by omega), rotright_eq (by omega), rotright_eq (by omega)]

theorem sig0_eq (x : BitVec 32) : sig0 x = smallSigma0 x := by
  rw [sig0, smallSigma0, rotright_eq (by omega), rotright_eq (by omega)]

theorem sig1_eq (x : BitVec 32) : sig1 x = smallSigma1 x := by
  rw [sig1, smallSigma1, rotright_eq (by omega), rotright_eq (by omega)]

/-- Four bytes shifted to their places. -/
theorem shifts_eq (b0 b1 b2 b3 : UInt8) :
    b0.toBitVec.setWidth 32 <<< 24 ||| b1.toBitVec.setWidth 32 <<< 16 ||| b2.toBitVec.setWidth 32 <<< 8 |||
      b3.toBitVec.setWidth 32 = ofBe32 b0 b1 b2 b3 := by
  ext i hi
  simp only [ofBe32]
  grind

theorem length_blockWords (data : Vector UInt8 64) : (blockWords data).length = 16 := by
  simp [blockWords]

theorem getD_blockWords (data : Vector UInt8 64) {t : ℕ} (h : t < 16) :
    (blockWords data).getD t 0 = messageWord data.toList t := by
  rw [messageWord, if_pos h, wordAt, ← shifts_eq, blockWords, List.getD_eq_getElem?_getD, List.getElem?_map,
    List.getElem?_range h]
  rfl

theorem messageWord_add (block : List UInt8) (n : ℕ) :
    messageWord block (16 + n) = smallSigma1 (messageWord block (16 + n - 2)) +
      messageWord block (16 + n - 7) + smallSigma0 (messageWord block (16 + n - 15)) +
      messageWord block (16 + n - 16) := by
  rw [messageWord, if_neg (by omega)]

/-- The schedule after `n` of its steps. -/
theorem schedule_steps (data : Vector UInt8 64) (n : ℕ) :
    ((List.range' 16 n).foldl nextWord (blockWords data)).length = 16 + n ∧
      ∀ t < 16 + n, ((List.range' 16 n).foldl nextWord (blockWords data)).getD t 0 =
        messageWord data.toList t := by
  induction n with
  | zero => exact ⟨length_blockWords data, fun t ht => getD_blockWords data (by omega)⟩
  | succ n ih =>
    obtain ⟨hlen, hget⟩ := ih
    rw [List.range'_concat, List.foldl_append, List.foldl_cons, List.foldl_nil, Nat.one_mul, nextWord]
    refine ⟨by rw [List.length_append, hlen, List.length_singleton, Nat.add_assoc], fun t ht => ?_⟩
    by_cases hlt : t < 16 + n
    · rw [List.getD_append _ _ _ _ (by omega), hget t hlt]
    · have hlast : t = 16 + n := by omega
      rw [List.getD_append_right _ _ _ _ (by omega), hlen, hlast, Nat.sub_self, List.getD_cons_zero,
        hget _ (by omega), hget _ (by omega), hget _ (by omega), hget _ (by omega), sig0_eq, sig1_eq,
        messageWord_add]

/-- **The code transforms a block as the standard compresses it.** -/
theorem transform_eq (state : Words) (data : Vector UInt8 64) :
    transform state data = compress state data.toList := by
  have hround : ∀ v, ∀ t ∈ List.range 64, round (schedule data) v t = roundStep data.toList v t := by
    intro v t ht
    rw [round, roundStep, schedule, (schedule_steps data 48).2 t (List.mem_range.mp ht), ep0_eq, ep1_eq]
  rw [transform, compress, List.foldl_ext _ _ _ hround]

/-! ### The buffer -/

/-- The context after a message, in whatever updates it came. -/
structure Absorbed (ctx : Ctx) (message : List UInt8) : Prop where
  state : ctx.state = full 64 compress initialHash message
  datalen : ctx.datalen = message.length % 64
  data : ctx.data.toList.take ctx.datalen = rest 64 message
  bitlen : ctx.bitlen = BitVec.ofNat 64 (512 * (message.length / 64))

theorem absorbed_init (data : Vector UInt8 64) : Absorbed (init data) [] :=
  ⟨rfl, rfl, rfl, rfl⟩

theorem store_ok {data : Vector UInt8 64} {i : ℕ} (h : i < 64) (b : UInt8) :
    store data i b = .ok (data.set i b) := dif_pos h

/-- The bytes up to one that was just written. -/
theorem take_set {l : List UInt8} {i : ℕ} (h : i < l.length) (b : UInt8) :
    (l.set i b).take (i + 1) = l.take i ++ [b] := by
  rw [List.take_succ_eq_append_getElem (by simpa using h), List.getElem_set_self, List.take_set_of_le le_rfl]

/-- One byte more. -/
theorem updateByte_spec {ctx : Ctx} {message : List UInt8} (h : Absorbed ctx message) (b : UInt8) :
    ∃ ctx', updateByte ctx b = .ok ctx' ∧ Absorbed ctx' (message ++ [b]) := by
  have hlt : ctx.datalen < 64 := h.datalen ▸ Nat.mod_lt _ (by omega)
  have hnew := absorb_eq (f := compress) (s := initialHash) (l := message) (n := 64) (by omega) b
  have htake : (ctx.data.set ctx.datalen b).toList.take (ctx.datalen + 1) = rest 64 message ++ [b] := by
    rw [Vector.toList_set, take_set (by simpa using hlt), h.data]
  have hrest : (rest 64 message).length = ctx.datalen := by rw [length_rest, h.datalen]
  have hlen : (message ++ [b]).length = message.length + 1 := by simp
  have hmod := h.datalen
  rw [updateByte, store_ok hlt]
  by_cases hfull : ctx.datalen + 1 = 64
  · -- the block is complete, and is in the buffer as a whole
    rw [absorb, hrest, if_pos hfull, Prod.mk.injEq] at hnew
    rw [hfull, List.take_of_length_le (by simp)] at htake
    refine ⟨_, if_pos hfull, ?_, ?_, ?_, ?_⟩
    · rw [transform_eq, htake, h.state, hnew.1]
    · rw [hlen]
      show 0 = _
      omega
    · exact hnew.2
    · have hdiv : (message.length + 1) / 64 = message.length / 64 + 1 := by omega
      rw [hlen, hdiv, Nat.mul_succ, BitVec.ofNat_add, ← h.bitlen]
      rfl
  · rw [absorb, hrest, if_neg hfull, Prod.mk.injEq] at hnew
    refine ⟨_, if_neg hfull, ?_, ?_, ?_, ?_⟩
    · exact h.state.trans hnew.1
    · rw [hlen]
      show ctx.datalen + 1 = _
      omega
    · exact htake.trans hnew.2
    · have hdiv : (message.length + 1) / 64 = message.length / 64 := by omega
      rw [hlen, hdiv]
      exact h.bitlen

/-- The loop from its byte `i` on. -/
theorem updateLoop_spec {bytes : List UInt8} (hbytes : bytes.length < 2 ^ 32) {fuel : ℕ} {i : BitVec 32}
    {ctx : Ctx} {message : List UInt8} (h : Absorbed ctx message) (hi : i.toNat ≤ bytes.length)
    (hfuel : bytes.length - i.toNat < fuel) :
    ∃ ctx', updateLoop bytes fuel i ctx = .ok ctx' ∧ Absorbed ctx' (message ++ bytes.drop i.toNat) := by
  induction fuel generalizing i ctx message with
  | zero => omega
  | succ fuel ih =>
    rw [updateLoop]
    by_cases hlt : i.toNat < bytes.length
    · obtain ⟨ctx', hctx', h'⟩ := updateByte_spec h (bytes.getD i.toNat 0)
      have hnext : (i + 1).toNat = i.toNat + 1 := by
        rw [BitVec.toNat_add]
        exact Nat.mod_eq_of_lt (by simp; omega)
      obtain ⟨ctx'', hrun, h''⟩ := ih (i := i + 1) h' (by omega) (by omega)
      rw [if_pos hlt, hctx']
      refine ⟨ctx'', hrun, ?_⟩
      rwa [hnext, List.append_assoc, List.singleton_append, List.getD_eq_getElem _ _ hlt,
        ← List.drop_eq_getElem_cons hlt] at h''
    · refine ⟨ctx, if_neg hlt, ?_⟩
      rwa [List.drop_eq_nil_of_le (by omega), List.append_nil]

/-- **An update of less than `2 ^ 32` bytes returns**, and its bytes come behind what came before. -/
theorem update_spec {bytes : List UInt8} (hbytes : bytes.length < 2 ^ 32) {fuel : ℕ} {ctx : Ctx}
    {message : List UInt8} (h : Absorbed ctx message) (hfuel : bytes.length < fuel) :
    ∃ ctx', update fuel ctx bytes = .ok ctx' ∧ Absorbed ctx' (message ++ bytes) :=
  updateLoop_spec hbytes (i := 0) h (by simp) (by simpa using hfuel)

/-- The loop goes on as long as there are bytes left; in a longer update there always are, for the counter is
back at `0` before it gets to the length. -/
theorem updateLoop_outOfFuel {bytes : List UInt8} {fuel : ℕ} {i : BitVec 32}
    (hmore : 2 ^ 32 ≤ bytes.length ∨ i.toNat + fuel ≤ bytes.length) {ctx : Ctx} {message : List UInt8}
    (h : Absorbed ctx message) : updateLoop bytes fuel i ctx = .error .outOfFuel := by
  induction fuel generalizing i ctx message with
  | zero => rfl
  | succ fuel ih =>
    have hlt : i.toNat < bytes.length := by
      have := i.isLt
      omega
    have hnext : (i + 1).toNat ≤ i.toNat + 1 := by
      rw [BitVec.toNat_add]
      exact Nat.mod_le _ _
    obtain ⟨ctx', hctx', h'⟩ := updateByte_spec h (bytes.getD i.toNat 0)
    rw [updateLoop, if_pos hlt, hctx']
    exact ih (by omega) h'

/-- **An update of `2 ^ 32` bytes or more never returns.** -/
theorem update_not_returns {bytes : List UInt8} {fuel : ℕ}
    (hmore : 2 ^ 32 ≤ bytes.length ∨ fuel ≤ bytes.length) {ctx : Ctx} {message : List UInt8}
    (h : Absorbed ctx message) : update fuel ctx bytes = .error .outOfFuel :=
  updateLoop_outOfFuel (by simpa using hmore) h

/-! ### The end of a message -/

theorem toList_fill (data : Vector UInt8 64) {i stop : ℕ} (hi : i ≤ stop) (hstop : stop ≤ 64) :
    (fill data i stop).toList.take stop = data.toList.take i ++ List.replicate (stop - i) 0 := by
  have hfold : ∀ n, i + n ≤ 64 →
      ((List.range' i n).foldl (fun data j => data.setIfInBounds j 0) data).toList.take (i + n) =
        data.toList.take i ++ List.replicate n 0 := by
    intro n hn
    induction n with
    | zero => rw [List.replicate_zero, List.append_nil]; rfl
    | succ n ih =>
      rw [List.range'_concat, List.foldl_append, List.foldl_cons, List.foldl_nil, Nat.one_mul,
        Vector.toList_setIfInBounds, ← Nat.add_assoc, take_set (by simp; omega), ih (by omega),
        List.append_assoc, List.replicate_succ']
  have hall := hfold (stop - i) (by omega)
  rwa [Nat.add_sub_cancel' hi] at hall

theorem outputByte_eq (word : BitVec 32) {i : ℕ} (h : i < 4) : outputByte word i = byteOf word (3 - i) := by
  have hmask : ∀ (j : ℕ) (hj : j < 8), (255#8)[j] = true := by decide
  have hoff : 24 - i * 8 = 8 * (3 - i) := by omega
  rw [outputByte, byteOf, hoff, ← UInt8.toBitVec_inj]
  ext j hj
  simp [hmask j hj]

/-- The bytes of the length go behind the first 56. -/
theorem toList_storeLength (data : Vector UInt8 64) (bitlen : BitVec 64) :
    (storeLength data bitlen).toList = data.toList.take 56 ++ be64 bitlen := by
  have hbyte : ∀ i, UInt8.ofBitVec ((bitlen >>> (8 * i)).setWidth 8) = byteOf bitlen i := by
    intro i
    rw [byteOf, ← UInt8.toBitVec_inj]
    ext j hj
    simp
  have h0 := hbyte 0
  simp only [Nat.mul_zero, BitVec.ushiftRight_zero] at h0
  rw [storeLength, be64, h0, hbyte 1, hbyte 2, hbyte 3, hbyte 4, hbyte 5, hbyte 6, hbyte 7]
  refine List.ext_getElem (by simp) fun i h1 _ => ?_
  rw [Vector.length_toList] at h1
  simp only [Vector.getElem_toList, Vector.getElem_set]
  by_cases hi : i < 56
  · rw [List.getElem_append_left (by simp; omega), List.getElem_take]
    simp
    grind
  · rw [List.getElem_append_right (by simp; omega)]
    simp
    grind

/-- The digest comes out, whatever was in the array. -/
theorem toList_output (state : Words) (hash : Vector UInt8 32) :
    ((List.range 4).foldl (outputStep state) hash).toList = digest state := by
  have hrange : List.range 4 = [0, 1, 2, 3] := rfl
  rw [hrange]
  simp only [List.foldl_cons, List.foldl_nil, outputStep, outputByte_eq _ (show 0 < 4 by omega),
    outputByte_eq _ (show 1 < 4 by omega), outputByte_eq _ (show 2 < 4 by omega),
    outputByte_eq _ (show 3 < 4 by omega)]
  refine List.ext_getElem (by simp [digest]) fun i h1 _ => ?_
  rw [Vector.length_toList] at h1
  simp only [Vector.getElem_toList, Vector.getElem_setIfInBounds, digest, be32]
  interval_cases i <;> rfl

/-- What `sha256_final` transforms is the padding behind what was in the buffer. -/
theorem padBuffer_spec (state : Words) {data : Vector UInt8 64} {buffered : List UInt8} {datalen : ℕ}
    (hlen : buffered.length = datalen) (hlt : datalen < 64)
    (hdata : data.toList.take (datalen + 1) = buffered ++ [0x80]) (bitlen : BitVec 64) :
    transform (padBuffer state data datalen).2 (storeLength (padBuffer state data datalen).1 bitlen) =
      full 64 compress state
        (buffered ++ 0x80 :: List.replicate (paddingZeros datalen) 0 ++ be64 bitlen) := by
  rw [transform_eq, toList_storeLength, padBuffer]
  by_cases hroom : datalen < 56
  · have hzeros : paddingZeros datalen = 56 - (datalen + 1) := by
      unfold paddingZeros
      omega
    have hfill := toList_fill data (show datalen + 1 ≤ 56 by omega) (by omega)
    have hblock : (buffered ++ 0x80 :: List.replicate (56 - (datalen + 1)) 0 ++ be64 bitlen).length = 64 := by
      simp [hlen, be64]
      omega
    rw [if_pos hroom, hfill, hdata, hzeros, full_of_length (by omega) hblock, List.append_assoc buffered,
      List.singleton_append]
  · -- the zeros go to the end of this block and on to the length in the next one
    have hzeros : paddingZeros datalen = 64 - (datalen + 1) + 56 := by
      unfold paddingZeros
      omega
    have hfirst := toList_fill data (show datalen + 1 ≤ 64 by omega) le_rfl
    have hsecond := toList_fill (fill data (datalen + 1) 64) (show 0 ≤ 56 by omega) (by omega)
    rw [List.take_of_length_le (by simp), hdata, List.append_assoc, List.singleton_append] at hfirst
    rw [List.take_zero, List.nil_append] at hsecond
    have hblock : (buffered ++ 0x80 :: List.replicate (64 - (datalen + 1)) (0 : UInt8)).length = 64 := by
      simp [hlen]
      omega
    have hsplit : buffered ++ 0x80 :: List.replicate (paddingZeros datalen) 0 ++ be64 bitlen =
        (buffered ++ 0x80 :: List.replicate (64 - (datalen + 1)) 0) ++
          (List.replicate 56 0 ++ be64 bitlen) := by
      rw [hzeros, List.replicate_add]
      simp
    rw [if_neg hroom, hsplit, full_block_append (by omega) hblock,
      full_of_length (by omega) (by simp [be64]), ← hfirst, ← transform_eq]
    exact congrArg (fun l => compress _ (l ++ be64 bitlen)) hsecond

theorem final_ok {ctx : Ctx} (hlt : ctx.datalen < 64) (hash : Vector UInt8 32) :
    final ctx hash = .ok ((List.range 4).foldl (outputStep (transform
      (padBuffer ctx.state (ctx.data.set ctx.datalen 0x80) ctx.datalen).2
      (storeLength (padBuffer ctx.state (ctx.data.set ctx.datalen 0x80) ctx.datalen).1
        (ctx.bitlen + BitVec.ofNat 64 (ctx.datalen * 8))))) hash) := by
  rw [final, store_ok hlt]
  rfl

/-- **The end of a message.** -/
theorem final_spec {ctx : Ctx} {message : List UInt8} (h : Absorbed ctx message) (hash : Vector UInt8 32) :
    ∃ v, final ctx hash = .ok v ∧ v.toList = sha256 message := by
  have hlt : ctx.datalen < 64 := h.datalen ▸ Nat.mod_lt _ (by omega)
  have hmod := h.datalen
  have hrest : (rest 64 message).length = ctx.datalen := by rw [length_rest, h.datalen]
  have hbits : ctx.bitlen + BitVec.ofNat 64 (ctx.datalen * 8) = BitVec.ofNat 64 (8 * message.length) := by
    rw [h.bitlen, ← BitVec.ofNat_add]
    congr 1
    omega
  have hzeros : paddingZeros message.length = paddingZeros ctx.datalen := by
    unfold paddingZeros
    omega
  have htake : (ctx.data.set ctx.datalen 0x80).toList.take (ctx.datalen + 1) = rest 64 message ++ [0x80] := by
    rw [Vector.toList_set, take_set (by simpa using hlt), h.data]
  have hpad := padBuffer_spec ctx.state hrest hlt htake (BitVec.ofNat 64 (8 * message.length))
  refine ⟨_, final_ok hlt hash, ?_⟩
  rw [toList_output, hbits, hpad, sha256, pad, hzeros, List.append_assoc, List.append_assoc,
    full_append (l := message) (by omega), ← h.state]

/-- Some updates, one after the other. -/
theorem updates_spec {fuel : ℕ} {chunks : List (List UInt8)} (h32 : ∀ c ∈ chunks, c.length < 2 ^ 32)
    (hfuel : ∀ c ∈ chunks, c.length < fuel) {ctx : Ctx} {message : List UInt8} (h : Absorbed ctx message) :
    ∃ ctx', chunks.foldlM (update fuel) ctx = .ok ctx' ∧ Absorbed ctx' (message ++ chunks.flatten) := by
  induction chunks generalizing ctx message with
  | nil => exact ⟨ctx, rfl, by rwa [List.flatten_nil, List.append_nil]⟩
  | cons c chunks ih =>
    obtain ⟨ctx', hctx', h'⟩ := update_spec (h32 c List.mem_cons_self) h (hfuel c List.mem_cons_self)
    obtain ⟨ctx'', hctx'', h''⟩ := ih (fun c hc => h32 c (List.mem_cons_of_mem _ hc))
      (fun c hc => hfuel c (List.mem_cons_of_mem _ hc)) h'
    refine ⟨ctx'', ?_, by rwa [List.flatten_cons, ← List.append_assoc]⟩
    rw [List.foldlM_cons, hctx']
    exact hctx''

/-- An update that does not return ends them all. -/
theorem updates_not_return {fuel : ℕ} {chunks : List (List UInt8)}
    (hmore : ∃ c ∈ chunks, 2 ^ 32 ≤ c.length ∨ fuel ≤ c.length) {ctx : Ctx} {message : List UInt8}
    (h : Absorbed ctx message) : chunks.foldlM (update fuel) ctx = .error .outOfFuel := by
  induction chunks generalizing ctx message with
  | nil => simp at hmore
  | cons c chunks ih =>
    rw [List.foldlM_cons]
    by_cases hc : 2 ^ 32 ≤ c.length ∨ fuel ≤ c.length
    · rw [update_not_returns hc h]
      rfl
    · obtain ⟨ctx', hctx', h'⟩ := update_spec (show c.length < 2 ^ 32 by omega) h (show c.length < fuel by omega)
      rw [hctx']
      refine ih ?_ h'
      obtain ⟨c', hc', hmore'⟩ := hmore
      rcases List.mem_cons.mp hc' with rfl | hc'
      · exact absurd hmore' hc
      · exact ⟨c', hc', hmore'⟩

/-- The hash of what came in some updates. -/
theorem hashOf_spec {fuel : ℕ} {chunks : List (List UInt8)} (h32 : ∀ c ∈ chunks, c.length < 2 ^ 32)
    (hfuel : ∀ c ∈ chunks, c.length < fuel) (data : Vector UInt8 64) (hash : Vector UInt8 32) :
    ∃ v, hashOf fuel data hash chunks = .ok v ∧ v.toList = sha256 chunks.flatten := by
  obtain ⟨ctx, hctx, h⟩ := updates_spec h32 hfuel (absorbed_init data)
  rw [hashOf, hctx]
  exact final_spec h hash

theorem hashOf_outOfFuel {fuel : ℕ} {chunks : List (List UInt8)}
    (hmore : ∃ c ∈ chunks, 2 ^ 32 ≤ c.length ∨ fuel ≤ c.length) (data : Vector UInt8 64)
    (hash : Vector UInt8 32) : hashOf fuel data hash chunks = .error .outOfFuel := by
  rw [hashOf, updates_not_return hmore (absorbed_init data)]
  rfl

/-- **The code computes the hash of the standard**, however the message is cut into updates and whatever
was in the buffer and in the array: no byte is written outside the buffer, what comes out is the hash of
the message, and it comes out exactly if every update has less than `2 ^ 32` bytes. -/
theorem hashOf_streams (data : Vector UInt8 64) (hash : Vector UInt8 32) (chunks : List (List UInt8)) :
    (∀ fuel, hashOf fuel data hash chunks ≠ .error .outOfBounds) ∧
      (∀ fuel v, hashOf fuel data hash chunks = .ok v → v.toList = sha256 chunks.flatten) ∧
      ((∃ fuel v, hashOf fuel data hash chunks = .ok v) ↔ ∀ c ∈ chunks, c.length < 2 ^ 32) := by
  have hcases : ∀ fuel, hashOf fuel data hash chunks = .error .outOfFuel ∨
      (∀ c ∈ chunks, c.length < 2 ^ 32) ∧
        ∃ v, hashOf fuel data hash chunks = .ok v ∧ v.toList = sha256 chunks.flatten := by
    intro fuel
    by_cases hmore : ∃ c ∈ chunks, 2 ^ 32 ≤ c.length ∨ fuel ≤ c.length
    · exact .inl (hashOf_outOfFuel hmore data hash)
    · simp only [not_exists, not_and, not_or, Nat.not_le] at hmore
      exact .inr ⟨fun c hc => (hmore c hc).1,
        hashOf_spec (fun c hc => (hmore c hc).1) (fun c hc => (hmore c hc).2) data hash⟩
  refine ⟨fun fuel h => ?_, fun fuel v h => ?_, fun ⟨fuel, v, h⟩ => ?_, fun h32 => ?_⟩
  · rcases hcases fuel with h' | ⟨-, v, h', -⟩ <;> simp [h] at h'
  · rcases hcases fuel with h' | ⟨-, v', h', hv'⟩
    · simp [h] at h'
    · rw [h, Except.ok.injEq] at h'
      rw [h', hv']
  · rcases hcases fuel with h' | ⟨h32, -⟩
    · simp [h] at h'
    · exact h32
  · obtain ⟨v, hv, -⟩ := hashOf_spec h32 h32 data hash
    exact ⟨_, v, hv⟩

example : (hashOf 4 (Vector.replicate 64 7) (Vector.replicate 32 9) [[0x61], [0x62, 0x63]]).map Vector.toList =
    .ok [0xBA, 0x78, 0x16, 0xBF, 0x8F, 0x01, 0xCF, 0xEA, 0x41, 0x41, 0x40, 0xDE, 0x5D, 0xAE, 0x22, 0x23, 0xB0,
      0x03, 0x61, 0xA3, 0x96, 0x17, 0x7A, 0x9C, 0xB4, 0x10, 0xFF, 0x61, 0xF2, 0x00, 0x15, 0xAD] := by
  decide +kernel

/-! ### A file -/

/-- What the computer says about a file: whether `wxFileExists`, what `fopen` gives to read, and whether
`malloc` has memory for so many bytes. -/
structure Disk where
  exists_ : Bool
  fopen : Option (List UInt8)
  malloc : ℕ → Bool

/-- `filesize` in `is_samerom`, of 32 bits. -/
def filesize (file : List UInt8) : ℕ := file.length % 2 ^ 32

/-- `is_samerom`. -/
def isSamerom (fuel : ℕ) (data : Vector UInt8 64) (hash : Vector UInt8 32) (disk : Disk)
    (romhash : List Char) : Except Fault Bool :=
  if disk.exists_ then
    match disk.fopen with
    | none => .ok false
    | some file =>
      if disk.malloc (filesize file) then do
        let hash ← hashOf fuel data hash [file.take (filesize file)]
        return formatHex hash.toList = romhash
      else .ok false
  else .ok false

theorem formatHex_inj {a b : List UInt8} : formatHex a = formatHex b ↔ a = b := by
  rw [formatHex_eq, formatHex_eq]
  exact ⟨bytesToHash_inj, fun h => by rw [h]⟩

/-- **The browser has the ROM** exactly if there is a file that can be read and as many of its bytes as 32
bits count have the hash of the packet; and it always finds out. -/
theorem isSamerom_iff (disk : Disk) (romhash : List UInt8) (data : Vector UInt8 64) (hash : Vector UInt8 32) :
    ∃ same, isSamerom (2 ^ 32) data hash disk (formatHex romhash) = .ok same ∧
      (same = true ↔ disk.exists_ = true ∧ ∃ file, disk.fopen = some file ∧
        disk.malloc (filesize file) = true ∧ sha256 (file.take (filesize file)) = romhash) := by
  rw [isSamerom]
  by_cases hexists : disk.exists_ = true
  · rw [if_pos hexists]
    cases hopen : disk.fopen with
    | none => exact ⟨false, rfl, by simp⟩
    | some file =>
      by_cases hmalloc : disk.malloc (filesize file) = true
      · have hlt : filesize file < 2 ^ 32 := Nat.mod_lt _ (by omega)
        have hlen : (file.take (filesize file)).length < 2 ^ 32 := by
          rw [List.length_take]
          omega
        have hone : ∀ c ∈ [file.take (filesize file)], c.length < 2 ^ 32 := by simpa using hlen
        obtain ⟨v, hv, hsha⟩ := hashOf_spec hone hone data hash
        rw [List.flatten_singleton] at hsha
        refine ⟨decide (formatHex v.toList = formatHex romhash), ?_, ?_⟩
        · simp only [hmalloc, if_true, hv]
          rfl
        · simp [hexists, hmalloc, formatHex_inj, hsha]
      · exact ⟨false, if_neg hmalloc, by simp [hmalloc]⟩
  · exact ⟨false, if_neg hexists, by simp [hexists]⟩

end N64NetLib.Client.Sha256
