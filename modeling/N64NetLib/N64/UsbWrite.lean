import N64NetLib.N64.Netlib

/-! # Writing through the carts

What `usb_write` does with the data, for each of the three carts. The 64Drive and the SC64 have a memory
into which the data is copied, block by block through the buffer, and are then told with a header to send
it. The EverDrive has none: the buffer is sent block by block, and a frame is put around the data on the
way. What the carts answer is an argument, so that the results are about all answers.

Main results: the memory holds the data, with zeros behind it for the 64Drive (`block_sdramLoop`); the blocks
for the EverDrive fit its buffer and make up the frame, and what is sent before a timeout is the front of
it (`everdriveLoop_spec`). -/

namespace N64NetLib.N64.UsbWrite

open N64NetLib.Lib.BigEndian N64NetLib.Lib.Memory N64NetLib.N64.Netlib

/-! ### The code -/

/-- `BUFFER_SIZE`. -/
def bufferSize : ℕ := 512

/-- `ALIGN`. -/
def align (value a : ℕ) : ℕ := (value + (a - 1)) / a * a

/-- `USBHEADER_CREATE`. -/
def usbheaderCreate (type : UInt8) (left : ℕ) : BitVec 32 :=
  type.toBitVec.setWidth 32 <<< 24 ||| BitVec.ofNat 32 left &&& 0x00FFFFFF#32

/-- `USBHEADER_GETTYPE`. -/
def usbheaderGettype (header : BitVec 32) : UInt8 := byteOf header 3

/-- `USBHEADER_GETSIZE`. -/
def usbheaderGetsize (header : BitVec 32) : ℕ := (header &&& 0x00FFFFFF#32).toNat

/-- The loop of `usb_64drive_write`, with blocks padded to a multiple of `pad` bytes, and of `usb_sc64_write`,
where they are not: the buffer and the memory of the cart. The last block only is one that is padded. -/
def sdramLoop (pad : ℕ) (data : List UInt8) (buffer sdram : ℕ → UInt8) (address : ℕ) :
    (ℕ → UInt8) × (ℕ → UInt8) :=
  if data = [] then (buffer, sdram)
  else
    let size := min data.length bufferSize
    let padded := align size pad
    let buffer := store (store buffer 0 (data.take size)) size (List.replicate (padded - size) 0)
    sdramLoop pad (data.drop size) buffer (store sdram address (block buffer 0 (align padded 2))) (address + padded)
termination_by data.length
decreasing_by
  have hpos : 0 < data.length := List.length_pos_of_ne_nil ‹_›
  rw [List.length_drop]
  simp only [bufferSize]
  omega

/-- What a cart answers. -/
structure Answers where
  /-- The 64Drive is armed. -/
  armed : Bool
  /-- The 64Drive is armed when it is told to send. -/
  armedAgain : Bool
  /-- The last transfer of the 64Drive or the SC64 is not finished. -/
  busy : Bool
  /-- The SC64 does not take the command. -/
  error : Bool
  /-- The 64Drive or the SC64 takes too long. -/
  late : Bool
  /-- The EverDrive takes too long with a block. -/
  act : ℕ → Bool

/-- What a cart is given to send. -/
inductive Sent
  | nothing
  | message (m : Message)
  | blocks (l : List (List UInt8))
deriving DecidableEq

/-- What is left after a write: what `usb_write` returns, the buffer, the memory of the cart, and what it sends. -/
structure Done where
  result : Written
  buffer : ℕ → UInt8
  sdram : ℕ → UInt8
  sent : Sent

/-- A cart that is told with a header to send what is in its memory. -/
def Sent.ofHeader (header : BitVec 32) (sdram : ℕ → UInt8) : Sent :=
  .message ⟨usbheaderGettype header, block sdram 0 (usbheaderGetsize header)⟩

/-- `usb_64drive_write`, with `usb_64drive_cui_write`. -/
def usb64driveWrite (ans : Answers) (datatype : UInt8) (data : List UInt8) (buffer sdram : ℕ → UInt8) : Done :=
  if ans.armed then ⟨.fail, buffer, sdram, .nothing⟩
  else if ans.busy then ⟨.timeout, buffer, sdram, .nothing⟩
  else
    let (buffer, sdram) := sdramLoop 4 data buffer sdram 0
    if ans.armedAgain then ⟨.fail, buffer, sdram, .nothing⟩
    else
      let sent := Sent.ofHeader (usbheaderCreate datatype (align data.length 4)) sdram
      if ans.late then ⟨.timeout, buffer, sdram, sent⟩ else ⟨.success, buffer, sdram, sent⟩

/-- `usb_sc64_write`. -/
def usbSc64Write (ans : Answers) (datatype : UInt8) (data : List UInt8) (buffer sdram : ℕ → UInt8) : Done :=
  if ans.busy then ⟨.timeout, buffer, sdram, .nothing⟩
  else
    let (buffer, sdram) := sdramLoop 1 data buffer sdram 0
    if ans.error then ⟨.fail, buffer, sdram, .nothing⟩
    else
      let sent := Sent.ofHeader (usbheaderCreate datatype data.length) sdram
      if ans.late then ⟨.timeout, buffer, sdram, sent⟩ else ⟨.success, buffer, sdram, sent⟩

/-- `cmp`: `CMPH`. -/
def cmp : List UInt8 := [0x43, 0x4D, 0x50, 0x48]

/-- `DMA@`. -/
def dma : List UInt8 := [0x44, 0x4D, 0x41, 0x40]

/-- The `block` of `usb_everdrive_write`: what fits behind the offset. -/
def blockSize (left offset : ℕ) : ℕ := if left + offset > bufferSize then bufferSize - offset else left

/-- A block that is empty leaves the buffer empty. -/
theorem blockSize_decreases {left offset : ℕ} (h : left ≠ 0) :
    left - blockSize left offset < left ∨ left - blockSize left offset = left ∧ 0 < offset := by
  unfold blockSize bufferSize
  split_ifs with hfit <;> omega

/-- The loop of `usb_everdrive_write`: what it returns, the buffer and the blocks that were sent. -/
def everdriveLoop (act : ℕ → Bool) (size : ℕ) (wrotecmp : Bool) (data : List UInt8) (read left offset : ℕ)
    (buffer : ℕ → UInt8) (sent : List (List UInt8)) : Written × (ℕ → UInt8) × List (List UInt8) :=
  if left = 0 then (.success, buffer, sent)
  else
    let n := blockSize left offset
    let buffer := store buffer offset ((data.drop read).take n)
    if wrotecmp = false ∧ read + n ≥ size then
      everdriveLoop act size true cmp 0 4 (n + offset) buffer sent
    else
      let sent' := sent ++ [block buffer 0 (align (n + offset) 2)]
      if act sent.length then (.timeout, buffer, sent')
      else everdriveLoop act size wrotecmp data (read + n) (left - n) 0 buffer sent'
termination_by (if wrotecmp then 0 else 1, left, offset)
decreasing_by
  · refine Prod.Lex.left _ _ ?_
    have hw := (show wrotecmp = false ∧ _ from ‹_›).1
    simp [hw]
  · refine Prod.Lex.right _ ?_
    rcases @blockSize_decreases left offset ‹¬left = 0› with hlt | ⟨heq, hlt⟩
    · exact Prod.Lex.left _ _ hlt
    · show Prod.Lex _ _ (left - blockSize left offset, 0) (left, offset)
      rw [heq]
      exact Prod.Lex.right _ hlt

/-- `usb_everdrive_write`. -/
def usbEverdriveWrite (ans : Answers) (datatype : UInt8) (data : List UInt8) (buffer sdram : ℕ → UInt8) : Done :=
  let header := dma ++ be32 (usbheaderCreate datatype data.length)
  let (result, buffer, sent) :=
    everdriveLoop ans.act data.length false data 0 data.length 8 (store buffer 0 header) []
  ⟨result, buffer, sdram, .blocks sent⟩

/-- The cart's own write function. -/
def funcPointerWrite (cart : Cart) (ans : Answers) (datatype : UInt8) (data : List UInt8)
    (buffer sdram : ℕ → UInt8) : Done :=
  match cart with
  | .none => ⟨.fail, buffer, sdram, .nothing⟩
  | .d64 => usb64driveWrite ans datatype data buffer sdram
  | .everdrive => usbEverdriveWrite ans datatype data buffer sdram
  | .sc64 => usbSc64Write ans datatype data buffer sdram

/-! ### Headers and sizes -/

theorem getLsbD_mask : ∀ i < 32, (0x00FFFFFF#32).getLsbD i = decide (i < 24) := by decide

theorem usbheaderGettype_create (type : UInt8) (left : ℕ) : usbheaderGettype (usbheaderCreate type left) = type := by
  refine UInt8.toBitVec_inj.mp (BitVec.eq_of_getLsbD_eq fun i hi => ?_)
  have hbit : 24 + i < 32 := by omega
  have hlow : (BitVec.ofNat 32 left &&& 0x00FFFFFF#32).getLsbD (24 + i) = false := by
    rw [BitVec.getLsbD_and, getLsbD_mask _ hbit]
    simp
  simp only [usbheaderGettype, usbheaderCreate, byteOf, UInt8.toBitVec_ofBitVec, BitVec.getLsbD_extractLsb',
    Nat.reduceMul, BitVec.getLsbD_or, hlow]
  simp [hi, hbit]

theorem usbheaderGetsize_create (type : UInt8) {left : ℕ} (h : left < 2 ^ 24) :
    usbheaderGetsize (usbheaderCreate type left) = left := by
  have heq : usbheaderCreate type left &&& 0x00FFFFFF#32 = BitVec.ofNat 32 left := by
    refine BitVec.eq_of_getLsbD_eq fun i hi => ?_
    have hmask := getLsbD_mask i hi
    simp only [usbheaderCreate, BitVec.getLsbD_and, BitVec.getLsbD_or, BitVec.getLsbD_shiftLeft, hmask]
    by_cases hlow : i < 24
    · simp [hlow]
    · have hbit : left.testBit i = false :=
        Nat.testBit_lt_two_pow (h.trans_le (Nat.pow_le_pow_right (by decide) (by omega)))
      rw [BitVec.getLsbD_ofNat, hbit]
      simp [hlow]
  rw [usbheaderGetsize, heq, BitVec.toNat_ofNat, Nat.mod_eq_of_lt (by omega)]

section Align

variable {n a : ℕ}

theorem le_align (ha : 0 < a) : n ≤ align n a := by
  have hmod := Nat.div_add_mod (n + (a - 1)) a
  have hlt := Nat.mod_lt (n + (a - 1)) ha
  rw [align, Nat.mul_comm]
  omega

theorem align_lt (ha : 0 < a) : align n a < n + a := by
  have hle := Nat.div_mul_le_self (n + (a - 1)) a
  rw [align]
  omega

theorem align_add_of_dvd {m : ℕ} (ha : 0 < a) (hm : a ∣ m) : align (n + m) a = align n a + m := by
  obtain ⟨c, rfl⟩ := hm
  rw [align, align, Nat.add_right_comm, Nat.add_mul_div_left _ _ ha, Nat.add_mul, Nat.mul_comm c]

theorem align_of_dvd (ha : 0 < a) (h : a ∣ n) : align n a = n := by
  have hzero : align 0 a = 0 := by
    rw [align, Nat.zero_add, Nat.div_eq_of_lt (by omega), Nat.zero_mul]
  rw [← Nat.zero_add n, align_add_of_dvd ha h, hzero]

end Align

/-! ### The memory of the cart -/

theorem take_block {m : ℕ → UInt8} {i n k : ℕ} (h : n ≤ k) : (block m i k).take n = block m i n := by
  rw [← Nat.add_sub_cancel' h, block_add, List.take_left' length_block]

/-- The front of what was stored is there. -/
theorem block_store_take {m : ℕ → UInt8} {i n : ℕ} {l : List UInt8} (h : n ≤ l.length) :
    block (store m i l) i n = l.take n := by
  rw [← take_block h, block_store]

/-- One piece stored behind another. -/
theorem block_store_append {m : ℕ → UInt8} {i : ℕ} {l l' : List UInt8} :
    block (store (store m i l) (i + l.length) l') i (l.length + l'.length) = l ++ l' := by
  rw [block_add, block_store_of_le le_rfl, block_store, block_store]

variable {pad : ℕ}

/-- **The memory of the cart** holds the data, padded with zeros, and in front of it what it held before. -/
theorem block_sdramLoop (hpad : 0 < pad) (hdvd : pad ∣ bufferSize) (data : List UInt8) (buffer sdram : ℕ → UInt8)
    (address : ℕ) :
    block (sdramLoop pad data buffer sdram address).2 address (align data.length pad) =
        data ++ List.replicate (align data.length pad - data.length) 0 ∧
      ∀ j < address, (sdramLoop pad data buffer sdram address).2 j = sdram j := by
  fun_induction sdramLoop pad data buffer sdram address with
  | case1 buffer sdram address =>
    rw [List.length_nil, align_of_dvd hpad (Nat.dvd_zero _)]
    exact ⟨rfl, fun _ _ => rfl⟩
  | case2 data buffer sdram address hne size padded buffer' ih =>
    have htake : (data.take size).length = size := List.length_take_of_le (Nat.min_le_left _ _)
    have hle : size ≤ padded := le_align hpad
    -- what is copied from the buffer
    have hbuffer : block buffer' 0 padded = data.take size ++ List.replicate (padded - size) 0 := by
      have happend := @block_store_append buffer 0 (data.take size)
        (List.replicate (padded - size) 0)
      rw [htake, List.length_replicate, Nat.zero_add, Nat.add_sub_cancel' hle] at happend
      exact happend
    have hmem : block (store sdram address (block buffer' 0 (align padded 2))) address padded =
        data.take size ++ List.replicate (padded - size) 0 := by
      rw [block_store_take (by rw [length_block]; exact le_align (by decide)), take_block (le_align (by decide)),
        hbuffer]
    obtain ⟨hrest, hbelow⟩ := ih
    -- the last block is padded, or it is a full one
    have hcases : data.length ≤ bufferSize ∧ size = data.length ∨ padded = size ∧ bufferSize < data.length := by
      by_cases hlast : data.length ≤ bufferSize
      · exact .inl ⟨hlast, Nat.min_eq_left hlast⟩
      · have hsize : size = bufferSize := Nat.min_eq_right (by omega)
        exact .inr ⟨by rw [show padded = align size pad from rfl, hsize, align_of_dvd hpad hdvd], by omega⟩
    refine ⟨?_, fun j hj => by rw [hbelow j (by omega), store_of_lt hj]⟩
    have hfirst : block (sdramLoop pad (data.drop size) buffer' (store sdram address
        (block buffer' 0 (align padded 2))) (address + padded)).2 address padded =
          data.take size ++ List.replicate (padded - size) 0 := by
      rw [← hmem]
      exact block_congr_iff.mpr fun j _ hj => hbelow j hj
    have hlen : (data.drop size).length = data.length - size := List.length_drop
    rcases hcases with ⟨-, hsize⟩ | ⟨hfull, hlong⟩
    · have hpadded : align data.length pad = padded := by rw [← hsize]
      rw [hpadded, hfirst, hsize, List.take_length]
    · have hsize : size = bufferSize := Nat.min_eq_right hlong.le
      have hsplit : align data.length pad = padded + align (data.drop size).length pad := by
        rw [hlen, hfull, hsize, Nat.add_comm, ← align_add_of_dvd hpad hdvd, Nat.sub_add_cancel hlong.le]
      have hzeros : padded + align (data.drop size).length pad - data.length =
          align (data.drop size).length pad - (data.drop size).length := by omega
      rw [hsplit, block_add, hfirst, hrest, hzeros, hfull, Nat.sub_self, List.replicate_zero, List.append_nil,
        ← List.append_assoc, List.take_append_drop]

/-! ### The blocks of the EverDrive -/

/-- What the EverDrive can take in one transfer. -/
def Fits (b : List UInt8) : Prop := b.length ≤ bufferSize ∧ b.length % 2 = 0

/-- The blocks of a write that ended with `result` are for what was to be sent: all of it, with one byte behind
it at most, or the front of that. -/
structure Sends (act : ℕ → Bool) (start : ℕ) (result : Written) (blocks : List (List UInt8)) (pending : List UInt8) :
    Prop where
  fits : ∀ b ∈ blocks, Fits b
  all : result = .success → ∃ pad : List UInt8, pad.length ≤ 1 ∧ blocks.flatten = pending ++ pad
  front : result = .timeout → ∃ pad : List UInt8, pad.length ≤ 1 ∧ blocks.flatten <+: pending ++ pad
  ends : result ≠ .fail
  late : result = .timeout ↔ ∃ i, i < blocks.length ∧ act (start + i) = true

/-- What `usb_everdrive_write` has still to send. -/
def pending (wrotecmp : Bool) (data : List UInt8) (read offset : ℕ) (buffer : ℕ → UInt8) : List UInt8 :=
  block buffer 0 offset ++ data.drop read ++ if wrotecmp then [] else cmp

/-- The state of the loop, with `cmp` as the data at the end. -/
structure Writing (size : ℕ) (wrotecmp : Bool) (data : List UInt8) (read left offset : ℕ) : Prop where
  left : data.length = read + left
  size : wrotecmp = false → size = data.length
  offset : offset ≤ bufferSize

theorem block_zero (m : ℕ → UInt8) (i : ℕ) : block m i 0 = [] := rfl

theorem blockSize_spec {left offset : ℕ} (h : offset ≤ bufferSize) :
    blockSize left offset ≤ left ∧ blockSize left offset + offset ≤ bufferSize ∧
      (blockSize left offset < left → blockSize left offset + offset = bufferSize) := by
  unfold blockSize
  split_ifs with hfit <;> omega

/-- The buffer with the next piece of the data behind what is in it. -/
theorem block_copy {data : List UInt8} {read left offset n : ℕ} {buffer : ℕ → UInt8}
    (hdata : data.length = read + left) (hn : n ≤ left) : block (store buffer offset ((data.drop read).take n)) 0 (n + offset) =
      block buffer 0 offset ++ (data.drop read).take n := by
  have hlen : ((data.drop read).take n).length = n := List.length_take_of_le (by rw [List.length_drop]; omega)
  have hstored := block_store (m := buffer) (i := offset) (l := (data.drop read).take n)
  rw [hlen] at hstored
  rw [Nat.add_comm, block_add, Nat.zero_add, block_store_of_le (by omega), hstored]

/-- What is to be sent is in the buffer, or behind it. -/
theorem pending_eq {wrotecmp : Bool} {data : List UInt8} {read left offset n : ℕ} {buffer buffer' : ℕ → UInt8}
    (hdata : data.length = read + left) (hn : n ≤ left) :
    pending wrotecmp data read offset buffer =
      block (store buffer offset ((data.drop read).take n)) 0 (n + offset) ++
        pending wrotecmp data (read + n) 0 buffer' := by
  have hsplit : data.drop read = (data.drop read).take n ++ data.drop (read + n) := by
    rw [← List.drop_drop, List.take_append_drop]
  calc pending wrotecmp data read offset buffer
      = block buffer 0 offset ++ ((data.drop read).take n ++ data.drop (read + n)) ++
          (if wrotecmp then [] else cmp) := by rw [← hsplit, pending]
    _ = _ := by
      rw [block_copy hdata hn, pending, block_zero, List.nil_append]
      simp only [List.append_assoc]

/-- A block that is sent: what is in the buffer, with a byte behind it if their number is odd. -/
theorem block_align {m : ℕ → UInt8} {n : ℕ} (hn : n ≤ bufferSize) :
    Fits (block m 0 (align n 2)) ∧
      ∃ pad : List UInt8, block m 0 (align n 2) = block m 0 n ++ pad ∧ pad.length = n % 2 := by
  unfold bufferSize at hn
  refine ⟨⟨?_, ?_⟩, block m n (align n 2 - n), ?_, ?_⟩
  · rw [length_block, align, bufferSize]
    omega
  · rw [length_block, align]
    omega
  · have hadd := block_add (m := m) (i := 0) (n := n) (k := align n 2 - n)
    rwa [Nat.add_sub_cancel' (le_align (by decide)), Nat.zero_add] at hadd
  · rw [length_block, align]
    omega

/-- A block that is sent is the front of what there is to send, or all of it and a byte at most. -/
theorem block_sent {size : ℕ} {wrotecmp : Bool} {data : List UInt8} {read left offset : ℕ}
    {buffer buffer' : ℕ → UInt8} (h : Writing size wrotecmp data read left offset)
    (hswitch : ¬ (wrotecmp = false ∧ read + blockSize left offset ≥ size))
    (hbuffer' : buffer' = store buffer offset ((data.drop read).take (blockSize left offset))) :
    Fits (block buffer' 0 (align (blockSize left offset + offset) 2)) ∧
      (blockSize left offset < left ∧ pending wrotecmp data read offset buffer =
          block buffer' 0 (align (blockSize left offset + offset) 2) ++
            pending wrotecmp data (read + blockSize left offset) 0 buffer' ∨
        blockSize left offset = left ∧ ∃ pad : List UInt8, pad.length ≤ 1 ∧
          block buffer' 0 (align (blockSize left offset + offset) 2) =
            pending wrotecmp data read offset buffer ++ pad) := by
  obtain ⟨hle, hfit, hfull⟩ := @blockSize_spec left _ h.offset
  obtain ⟨hfits, pad, hpad, hlen⟩ := block_align (m := buffer') hfit
  have hpending : pending wrotecmp data read offset buffer = _ := @pending_eq _ _ _ _ _ _ _ buffer' h.left hle
  rw [← hbuffer'] at hpending
  refine ⟨hfits, ?_⟩
  rcases Nat.lt_or_eq_of_le hle with hlt | heq
  · -- the buffer is full
    have heven : align (blockSize left offset + offset) 2 = blockSize left offset + offset := by
      rw [hfull hlt]
      rfl
    exact .inl ⟨hlt, by rw [heven, hpending]⟩
  · -- nothing is left but what is in the buffer, and that is the end of the frame
    have hdata := h.left
    have hcmp : wrotecmp = true := by
      by_contra hno
      have hfalse : wrotecmp = false := by simpa using hno
      have hsize := h.size hfalse
      exact hswitch ⟨hfalse, by omega⟩
    have hdrop : data.drop (read + blockSize left offset) = [] := List.drop_of_length_le (by omega)
    have hend : pending wrotecmp data (read + blockSize left offset) 0 buffer' = [] := by
      rw [pending, hdrop, hcmp, block_zero]
      rfl
    refine .inr ⟨heq, pad, by omega, ?_⟩
    rw [hpad, hpending, hend, List.append_nil]

theorem exists_lt_succ {act : ℕ → Bool} {start n : ℕ} (h : ¬ act start = true) :
    (∃ i, i < n + 1 ∧ act (start + i) = true) ↔ ∃ i, i < n ∧ act (start + (i + 1)) = true := by
  constructor
  · rintro ⟨i, hi, hact⟩
    cases i with
    | zero => exact absurd hact h
    | succ i => exact ⟨i, by omega, hact⟩
  · rintro ⟨i, hi, hact⟩
    exact ⟨i + 1, by omega, hact⟩

/-- **The loop for the EverDrive.** -/
theorem everdriveLoop_spec (act : ℕ → Bool) (size : ℕ) (wrotecmp : Bool) (data : List UInt8) (read left offset : ℕ)
    (buffer : ℕ → UInt8) (sent : List (List UInt8)) (hleft : left ≠ 0)
    (h : Writing size wrotecmp data read left offset) :
    ∃ blocks, (everdriveLoop act size wrotecmp data read left offset buffer sent).2.2 = sent ++ blocks ∧
      Sends act sent.length (everdriveLoop act size wrotecmp data read left offset buffer sent).1 blocks
        (pending wrotecmp data read offset buffer) := by
  fun_induction everdriveLoop act size wrotecmp data read left offset buffer sent with
  | case1 => exact absurd rfl hleft
  | case2 wrotecmp data read left offset buffer sent _ n buffer' hswitch ih =>
    -- the data is in the buffer, and `cmp` goes behind it
    obtain ⟨rfl, hread⟩ := hswitch
    have hle : n ≤ left := (blockSize_spec h.offset).1
    have hfit : n + offset ≤ bufferSize := (blockSize_spec h.offset).2.1
    have hdata := h.left
    have hn : n = left := by
      have hsize := h.size rfl
      omega
    have hpending : pending false data read offset buffer = pending true cmp 0 (n + offset) buffer' := by
      have hdrop : data.drop (read + n) = [] := List.drop_of_length_le (by omega)
      rw [@pending_eq _ _ _ _ _ _ _ buffer h.left hle]
      simp only [pending, hdrop, block_zero, List.nil_append, List.drop_zero, if_true, List.append_nil]
      rfl
    rw [hpending]
    exact ih (by decide) ⟨rfl, fun hno => Bool.noConfusion hno, hfit⟩
  | case3 wrotecmp data read left offset buffer sent _ n buffer' hswitch sent' hlate =>
    obtain ⟨hfits, hsent⟩ := @block_sent _ _ _ _ _ _ _ buffer' h hswitch rfl
    refine ⟨[block buffer' 0 (align (n + offset) 2)], rfl, ⟨?_, ?_, ?_, ?_, ?_⟩⟩
    · simpa using hfits
    · exact fun hno => by cases hno
    · intro _
      rw [List.flatten_singleton]
      rcases hsent with ⟨-, hpending⟩ | ⟨-, pad, hpad, hblock⟩
      · exact ⟨[], by simp, by rw [hpending, List.append_nil]; exact List.prefix_append _ _⟩
      · exact ⟨pad, hpad, hblock ▸ List.prefix_refl _⟩
    · exact fun hno => by cases hno
    · exact ⟨fun _ => ⟨0, by simp, hlate⟩, fun _ => rfl⟩
  | case4 wrotecmp data read left offset buffer sent _ n buffer' hswitch sent' hintime ih =>
    obtain ⟨hfits, hsent⟩ := @block_sent _ _ _ _ _ _ _ buffer' h hswitch rfl
    rcases hsent with ⟨hlt, hpending⟩ | ⟨heq, pad, hpad, hblock⟩
    · -- the rest by the induction hypothesis
      have hdata := h.left
      obtain ⟨blocks, hblocks, hrest⟩ := ih (by omega) ⟨by omega, h.size, Nat.zero_le _⟩
      refine ⟨block buffer' 0 (align (n + offset) 2) :: blocks, by rw [hblocks]; simp [sent'], ⟨?_, ?_, ?_, ?_, ?_⟩⟩
      · exact List.forall_mem_cons.mpr ⟨hfits, hrest.fits⟩
      · intro hok
        obtain ⟨pad, hpad, hflat⟩ := hrest.all hok
        exact ⟨pad, hpad, by rw [List.flatten_cons, hflat, hpending, List.append_assoc]⟩
      · intro hlate
        obtain ⟨pad, hpad, hflat⟩ := hrest.front hlate
        refine ⟨pad, hpad, ?_⟩
        rw [List.flatten_cons, hpending, List.append_assoc]
        exact (List.prefix_append_right_inj _).mpr hflat
      · exact hrest.ends
      · rw [hrest.late, List.length_cons, exists_lt_succ hintime]
        simp [sent', Nat.add_assoc, Nat.add_comm 1]
    · -- that was the last block
      have hend : everdriveLoop act size wrotecmp data (read + n) (left - n) 0 buffer' sent' =
          (.success, buffer', sent') := by
        rw [everdriveLoop, if_pos (show left - n = 0 by omega)]
      rw [hend]
      refine ⟨[block buffer' 0 (align (n + offset) 2)], rfl, ⟨?_, ?_, ?_, ?_, ?_⟩⟩
      · simpa using hfits
      · exact fun _ => ⟨pad, hpad, by rw [List.flatten_singleton]; exact hblock⟩
      · exact fun hno => by cases hno
      · exact fun hno => by cases hno
      · rw [List.length_singleton, exists_lt_succ hintime]
        simp

/-! ### What a write is for -/

/-- The frame that the EverDrive is given. -/
def everdriveFrame (datatype : UInt8) (data : List UInt8) : List UInt8 :=
  dma ++ be32 (usbheaderCreate datatype data.length) ++ data ++ cmp

/-- The cart has been given all of the data: the 64Drive with zeros up to a multiple of four, the EverDrive in a
frame with a byte behind it at most. -/
def Delivered (datatype : UInt8) (data : List UInt8) (sent : Sent) : Cart → Prop
  | .none => False
  | .d64 => sent = .message ⟨datatype, data ++ List.replicate (align data.length 4 - data.length) 0⟩
  | .everdrive => ∃ blocks, sent = .blocks blocks ∧ (∀ b ∈ blocks, Fits b) ∧
      ∃ pad : List UInt8, pad.length ≤ 1 ∧ blocks.flatten = everdriveFrame datatype data ++ pad
  | .sc64 => sent = .message ⟨datatype, data⟩

theorem pending_start {datatype : UInt8} {data : List UInt8} {buffer : ℕ → UInt8} :
    pending false data 0 8 (store buffer 0 (dma ++ be32 (usbheaderCreate datatype data.length))) =
      everdriveFrame datatype data := by
  have hblock := block_store (m := buffer) (i := 0) (l := dma ++ be32 (usbheaderCreate datatype data.length))
  rw [List.length_append, length_be32] at hblock
  rw [pending, List.drop_zero, everdriveFrame]
  exact congrArg (fun l => l ++ data ++ cmp) hblock

theorem ofHeader_create {datatype : UInt8} {n : ℕ} {sdram : ℕ → UInt8} {data : List UInt8} (hn : n < 2 ^ 24)
    (hdata : block sdram 0 n = data) :
    Sent.ofHeader (usbheaderCreate datatype n) sdram = .message ⟨datatype, data⟩ := by
  rw [Sent.ofHeader, usbheaderGettype_create, usbheaderGetsize_create _ hn, hdata]

/-- **Writing**: whatever the cart answers, it has been given all of the data when its write function says so;
and what the EverDrive was given when it took too long is the front of that. -/
theorem funcPointerWrite_spec (cart : Cart) (ans : Answers) (datatype : UInt8) {data : List UInt8}
    (hne : data ≠ []) (hlen : data.length ≤ 0xFFFFFC) (buffer sdram : ℕ → UInt8) :
    let done := funcPointerWrite cart ans datatype data buffer sdram
    (done.result = .success → Delivered datatype data done.sent cart) ∧
      (cart = .everdrive → done.result = .timeout → ∃ blocks, done.sent = .blocks blocks ∧ (∀ b ∈ blocks, Fits b) ∧
        ∃ pad : List UInt8, pad.length ≤ 1 ∧ blocks.flatten <+: everdriveFrame datatype data ++ pad) := by
  cases cart with
  | none => exact ⟨fun h => (by cases h), fun h => (by cases h)⟩
  | d64 =>
    refine ⟨fun hok => ?_, fun h => (by cases h)⟩
    have hsize : align data.length 4 < 2 ^ 24 := by
      have halign := align_lt (n := data.length) (show 0 < 4 by decide)
      rw [align] at halign ⊢
      omega
    show Delivered datatype data (usb64driveWrite ans datatype data buffer sdram).sent .d64
    change (usb64driveWrite ans datatype data buffer sdram).result = .success at hok
    unfold usb64driveWrite at hok ⊢
    split_ifs at hok ⊢
    exact ofHeader_create hsize (block_sdramLoop (by decide) (by decide) data buffer sdram 0).1
  | everdrive =>
    have hwriting : Writing data.length false data 0 data.length 8 := ⟨by omega, fun _ => rfl, by decide⟩
    obtain ⟨blocks, hblocks, hsends⟩ := everdriveLoop_spec ans.act data.length false data 0 data.length 8
      (store buffer 0 (dma ++ be32 (usbheaderCreate datatype data.length))) []
      (by simpa using hne) hwriting
    rw [pending_start] at hsends
    rw [List.nil_append] at hblocks
    exact ⟨fun hok => ⟨blocks, congrArg Sent.blocks hblocks, hsends.fits, hsends.all hok⟩,
      fun _ hlate => ⟨blocks, congrArg Sent.blocks hblocks, hsends.fits, hsends.front hlate⟩⟩
  | sc64 =>
    refine ⟨fun hok => ?_, fun h => (by cases h)⟩
    show Delivered datatype data (usbSc64Write ans datatype data buffer sdram).sent .sc64
    change (usbSc64Write ans datatype data buffer sdram).result = .success at hok
    have hone := (@block_sdramLoop 1 (by decide) (by decide) data buffer sdram 0).1
    rw [align_of_dvd (by decide) (Nat.one_dvd _), Nat.sub_self, List.replicate_zero, List.append_nil] at hone
    unfold usbSc64Write at hok ⊢
    split_ifs at hok ⊢
    exact ofHeader_create (by omega) hone

/-- An EverDrive that is never late gets everything. -/
theorem everdriveLoop_success {act : ℕ → Bool} (hact : ∀ i, act i = false) (size : ℕ) (wrotecmp : Bool)
    (data : List UInt8) (read left offset : ℕ) (buffer : ℕ → UInt8) (sent : List (List UInt8)) :
    (everdriveLoop act size wrotecmp data read left offset buffer sent).1 = .success := by
  fun_induction everdriveLoop act size wrotecmp data read left offset buffer sent with
  | case1 => rfl
  | case2 _ _ _ _ _ _ _ _ _ _ _ ih => exact ih
  | case3 _ _ _ _ _ _ sent _ _ _ _ _ hlate => exact absurd hlate (by simp [hact sent.length])
  | case4 _ _ _ _ _ _ _ _ _ _ _ _ _ ih => exact ih

/-- 600 bytes for the EverDrive: they come to more than one block, and all of the frame is in them. -/
theorem funcPointerWrite_spec_blocks : ∃ (blocks : List (List UInt8)) (pad : List UInt8),
    (funcPointerWrite .everdrive ⟨false, false, false, false, false, fun _ => false⟩ 0x27 (List.replicate 600 7)
        (fun _ => 0) fun _ => 0).sent = .blocks blocks ∧
      (∀ b ∈ blocks, Fits b) ∧ 2 ≤ blocks.length ∧ pad.length ≤ 1 ∧
      blocks.flatten = everdriveFrame 0x27 (List.replicate 600 7) ++ pad := by
  have hdata : (List.replicate 600 (7 : UInt8)).length = 600 := List.length_replicate
  obtain ⟨blocks, hsent, hfits, pad, hpad, hframe⟩ :=
    (@funcPointerWrite_spec .everdrive ⟨false, false, false, false, false, fun _ => false⟩ 0x27
      (List.replicate 600 7) (List.ne_nil_of_length_pos (by omega)) (by omega) (fun _ => 0) fun _ => 0).1
      (everdriveLoop_success (fun _ => rfl) ..)
  refine ⟨blocks, pad, hsent, hfits, ?_, hpad, hframe⟩
  have hlen : 612 ≤ blocks.flatten.length := by
    rw [hframe, everdriveFrame]
    simp only [List.length_append, length_be32, hdata, dma, cmp, List.length_cons, List.length_nil]
    omega
  match blocks, hfits, hlen with
  | [], _, hlen => simp at hlen
  | [b], hfits, hlen =>
    have hb := (hfits b (by simp)).1
    simp [bufferSize] at hlen hb
    omega
  | _ :: _ :: _, _, _ => simp

/-! ### What does not depend on the memory -/

theorem everdriveLoop_result (act : ℕ → Bool) (size : ℕ) (wrotecmp : Bool) (data : List UInt8) (read left offset : ℕ)
    (buffer buffer' : ℕ → UInt8) (sent sent' : List (List UInt8)) (hsent : sent.length = sent'.length) :
    (everdriveLoop act size wrotecmp data read left offset buffer sent).1 =
      (everdriveLoop act size wrotecmp data read left offset buffer' sent').1 := by
  fun_induction everdriveLoop act size wrotecmp data read left offset buffer sent generalizing buffer' sent' with
  | case1 => rw [everdriveLoop, if_pos rfl]
  | case2 wrotecmp data read left offset buffer sent hleft n _ hswitch ih =>
    rw [everdriveLoop.eq_def act size wrotecmp data read left offset buffer' sent', if_neg hleft]
    dsimp only
    rw [if_pos hswitch]
    exact ih _ _ hsent
  | case3 wrotecmp data read left offset buffer sent hleft n _ hswitch _ hlate =>
    rw [everdriveLoop.eq_def act size wrotecmp data read left offset buffer' sent', if_neg hleft]
    dsimp only
    rw [if_neg hswitch, ← hsent, if_pos hlate]
  | case4 wrotecmp data read left offset buffer sent hleft n _ hswitch more hintime ih =>
    rw [everdriveLoop.eq_def act size wrotecmp data read left offset buffer' sent', if_neg hleft]
    dsimp only
    rw [if_neg hswitch, ← hsent, if_neg hintime]
    exact ih _ _ (by simp [more, hsent])

/-- What a write function returns depends on the answers of the cart and on the data. -/
theorem funcPointerWrite_result (cart : Cart) (ans : Answers) (datatype : UInt8) (data : List UInt8)
    (buffer buffer' sdram sdram' : ℕ → UInt8) :
    (funcPointerWrite cart ans datatype data buffer sdram).result =
      (funcPointerWrite cart ans datatype data buffer' sdram').result := by
  cases cart with
  | none => rfl
  | d64 =>
    show (usb64driveWrite ans datatype data buffer sdram).result =
      (usb64driveWrite ans datatype data buffer' sdram').result
    unfold usb64driveWrite
    split_ifs <;> rfl
  | everdrive => exact everdriveLoop_result ans.act data.length false data 0 data.length 8 _ _ [] [] rfl
  | sc64 =>
    show (usbSc64Write ans datatype data buffer sdram).result = (usbSc64Write ans datatype data buffer' sdram').result
    unfold usbSc64Write
    split_ifs <;> rfl

end N64NetLib.N64.UsbWrite
