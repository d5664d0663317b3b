import Tracefs.ShiftRegister

/-!
# The record checksum and the CRC-32 it is meant to be

`checksum_compute_fun` carries its register in an `int` and shifts it with `>>`, which on a
negative `int` copies the sign into the vacated bits.  The standard CRC-32 shifts unsigned words.
The two steps are both linear and differ by a constant whenever the register is negative, so the
code's result is the standard one plus what those constants have become by the end of the string.
-/

namespace Tracefs.Crc

open Tracefs

def crc32TabG : List (BitVec 32) :=
  [0x00000000#32, 0x77073096#32, 0xee0e612c#32, 0x990951ba#32, 0x076dc419#32, 0x706af48f#32,
   0xe963a535#32, 0x9e6495a3#32, 0x0edb8832#32, 0x79dcb8a4#32, 0xe0d5e91e#32, 0x97d2d988#32,
   0x09b64c2b#32, 0x7eb17cbd#32, 0xe7b82d07#32, 0x90bf1d91#32, 0x1db71064#32, 0x6ab020f2#32,
   0xf3b97148#32, 0x84be41de#32, 0x1adad47d#32, 0x6ddde4eb#32, 0xf4d4b551#32, 0x83d385c7#32,
   0x136c9856#32, 0x646ba8c0#32, 0xfd62f97a#32, 0x8a65c9ec#32, 0x14015c4f#32, 0x63066cd9#32,
   0xfa0f3d63#32, 0x8d080df5#32, 0x3b6e20c8#32, 0x4c69105e#32, 0xd56041e4#32, 0xa2677172#32,
   0x3c03e4d1#32, 0x4b04d447#32, 0xd20d85fd#32, 0xa50ab56b#32, 0x35b5a8fa#32, 0x42b2986c#32,
   0xdbbbc9d6#32, 0xacbcf940#32, 0x32d86ce3#32, 0x45df5c75#32, 0xdcd60dcf#32, 0xabd13d59#32,
   0x26d930ac#32, 0x51de003a#32, 0xc8d75180#32, 0xbfd06116#32, 0x21b4f4b5#32, 0x56b3c423#32,
   0xcfba9599#32, 0xb8bda50f#32, 0x2802b89e#32, 0x5f058808#32, 0xc60cd9b2#32, 0xb10be924#32,
   0x2f6f7c87#32, 0x58684c11#32, 0xc1611dab#32, 0xb6662d3d#32, 0x76dc4190#32, 0x01db7106#32,
   0x98d220bc#32, 0xefd5102a#32, 0x71b18589#32, 0x06b6b51f#32, 0x9fbfe4a5#32, 0xe8b8d433#32,
   0x7807c9a2#32, 0x0f00f934#32, 0x9609a88e#32, 0xe10e9818#32, 0x7f6a0dbb#32, 0x086d3d2d#32,
   0x91646c97#32, 0xe6635c01#32, 0x6b6b51f4#32, 0x1c6c6162#32, 0x856530d8#32, 0xf262004e#32,
   0x6c0695ed#32, 0x1b01a57b#32, 0x8208f4c1#32, 0xf50fc457#32, 0x65b0d9c6#32, 0x12b7e950#32,
   0x8bbeb8ea#32, 0xfcb9887c#32, 0x62dd1ddf#32, 0x15da2d49#32, 0x8cd37cf3#32, 0xfbd44c65#32,
   0x4db26158#32, 0x3ab551ce#32, 0xa3bc0074#32, 0xd4bb30e2#32, 0x4adfa541#32, 0x3dd895d7#32,
   0xa4d1c46d#32, 0xd3d6f4fb#32, 0x4369e96a#32, 0x346ed9fc#32, 0xad678846#32, 0xda60b8d0#32,
   0x44042d73#32, 0x33031de5#32, 0xaa0a4c5f#32, 0xdd0d7cc9#32, 0x5005713c#32, 0x270241aa#32,
   0xbe0b1010#32, 0xc90c2086#32, 0x5768b525#32, 0x206f85b3#32, 0xb966d409#32, 0xce61e49f#32,
   0x5edef90e#32, 0x29d9c998#32, 0xb0d09822#32, 0xc7d7a8b4#32, 0x59b33d17#32, 0x2eb40d81#32,
   0xb7bd5c3b#32, 0xc0ba6cad#32, 0xedb88320#32, 0x9abfb3b6#32, 0x03b6e20c#32, 0x74b1d29a#32,
   0xead54739#32, 0x9dd277af#32, 0x04db2615#32, 0x73dc1683#32, 0xe3630b12#32, 0x94643b84#32,
   0x0d6d6a3e#32, 0x7a6a5aa8#32, 0xe40ecf0b#32, 0x9309ff9d#32, 0x0a00ae27#32, 0x7d079eb1#32,
   0xf00f9344#32, 0x8708a3d2#32, 0x1e01f268#32, 0x6906c2fe#32, 0xf762575d#32, 0x806567cb#32,
   0x196c3671#32, 0x6e6b06e7#32, 0xfed41b76#32, 0x89d32be0#32, 0x10da7a5a#32, 0x67dd4acc#32,
   0xf9b9df6f#32, 0x8ebeeff9#32, 0x17b7be43#32, 0x60b08ed5#32, 0xd6d6a3e8#32, 0xa1d1937e#32,
   0x38d8c2c4#32, 0x4fdff252#32, 0xd1bb67f1#32, 0xa6bc5767#32, 0x3fb506dd#32, 0x48b2364b#32,
   0xd80d2bda#32, 0xaf0a1b4c#32, 0x36034af6#32, 0x41047a60#32, 0xdf60efc3#32, 0xa867df55#32,
   0x316e8eef#32, 0x4669be79#32, 0xcb61b38c#32, 0xbc66831a#32, 0x256fd2a0#32, 0x5268e236#32,
   0xcc0c7795#32, 0xbb0b4703#32, 0x220216b9#32, 0x5505262f#32, 0xc5ba3bbe#32, 0xb2bd0b28#32,
   0x2bb45a92#32, 0x5cb36a04#32, 0xc2d7ffa7#32, 0xb5d0cf31#32, 0x2cd99e8b#32, 0x5bdeae1d#32,
   0x9b64c2b0#32, 0xec63f226#32, 0x756aa39c#32, 0x026d930a#32, 0x9c0906a9#32, 0xeb0e363f#32,
   0x72076785#32, 0x05005713#32, 0x95bf4a82#32, 0xe2b87a14#32, 0x7bb12bae#32, 0x0cb61b38#32,
   0x92d28e9b#32, 0xe5d5be0d#32, 0x7cdcefb7#32, 0x0bdbdf21#32, 0x86d3d2d4#32, 0xf1d4e242#32,
   0x68ddb3f8#32, 0x1fda836e#32, 0x81be16cd#32, 0xf6b9265b#32, 0x6fb077e1#32, 0x18b74777#32,
   0x88085ae6#32, 0xff0f6a70#32, 0x66063bca#32, 0x11010b5c#32, 0x8f659eff#32, 0xf862ae69#32,
   0x616bffd3#32, 0x166ccf45#32, 0xa00ae278#32, 0xd70dd2ee#32, 0x4e048354#32, 0x3903b3c2#32,
   0xa7672661#32, 0xd06016f7#32, 0x4969474d#32, 0x3e6e77db#32, 0xaed16a4a#32, 0xd9d65adc#32,
   0x40df0b66#32, 0x37d83bf0#32, 0xa9bcae53#32, 0xdebb9ec5#32, 0x47b2cf7f#32, 0x30b5ffe9#32,
   0xbdbdf21c#32, 0xcabac28a#32, 0x53b39330#32, 0x24b4a3a6#32, 0xbad03605#32, 0xcdd70693#32,
   0x54de5729#32, 0x23d967bf#32, 0xb3667a2e#32, 0xc4614ab8#32, 0x5d681b02#32, 0x2a6f2b94#32,
   0xb40bbe37#32, 0xc30c8ea1#32, 0x5a05df1b#32, 0x2d02ef8d#32]

/-- `*p`, an `unsigned char` promoted to `int`. -/
def byteWord (byte : UInt8) : BitVec 32 := byte.toBitVec.setWidth 32

/-- The body of the loop of `checksum_compute_fun`. -/
def checksumStep (crc : BitVec 32) (byte : UInt8) : BitVec 32 :=
  crc32TabG.getD ((crc ^^^ byteWord byte) &&& 0xff#32).toNat 0#32 ^^^ crc.sshiftRight 8

/-- `buf` is the byte string of `size` bytes that the loop walks through. -/
def checksumComputeFun (crc : BitVec 32) (buf : List UInt8) : BitVec 32 :=
  buf.foldl checksumStep (crc ^^^ BitVec.allOnes 32) ^^^ BitVec.allOnes 32

/-! ## The standard code -/

def polynomial : BitVec 32 := 0xedb88320#32

/-- Eight bits through the reflected shift register. -/
def crcShift : BitVec 32 → BitVec 32 := (shiftBit polynomial)^[8]

/-- CRC-32 continued from `seed`, bit by bit over unsigned words. -/
def crc32 (seed : BitVec 32) (bytes : List UInt8) : BitVec 32 :=
  ~~~feed crcShift (~~~seed) (bytes.map byteWord)

example : crc32 0#32 [0x61, 0x62, 0x63] = 0x352441c2#32 := by decide +kernel

/-! ## The code's step as a linear map -/

/-- The loop body with the byte already added to the register. -/
def tableStep (register : BitVec 32) : BitVec 32 :=
  crc32TabG.getD (register &&& 0xff#32).toNat 0#32 ^^^ register.sshiftRight 8

theorem crc32TabG_eq_shift :
    ∀ index : Fin 256, crc32TabG.getD index 0#32 = crcShift (BitVec.ofNat 32 index) := by
  decide +kernel

theorem toNat_lowByte (register : BitVec 32) :
    (register &&& 0xff#32).toNat = register.toNat % 256 := by
  rw [BitVec.toNat_and]
  exact Nat.and_two_pow_sub_one_eq_mod register.toNat 8

theorem lowByte_lt (register : BitVec 32) : (register &&& 0xff#32).toNat < 256 := by
  rw [toNat_lowByte]
  exact Nat.mod_lt _ (by decide)

theorem getD_crc32TabG (register : BitVec 32) :
    crc32TabG.getD (register &&& 0xff#32).toNat 0#32 = crcShift (register &&& 0xff#32) := by
  have entry := crc32TabG_eq_shift ⟨_, lowByte_lt register⟩
  rwa [BitVec.ofNat_toNat, BitVec.setWidth_eq] at entry

theorem byteWord_sshiftRight (byte : UInt8) : (byteWord byte).sshiftRight 8 = 0#32 := by
  apply BitVec.eq_of_getLsbD_eq
  intro i bound
  simp [byteWord, BitVec.getLsbD_sshiftRight, BitVec.getLsbD_setWidth, BitVec.msb_setWidth]

theorem checksumStep_eq_tableStep (crc : BitVec 32) (byte : UInt8) :
    checksumStep crc byte = tableStep (crc ^^^ byteWord byte) := by
  rw [checksumStep, tableStep, BitVec.sshiftRight_xor_distrib, byteWord_sshiftRight,
    BitVec.xor_zero]

theorem checksumComputeFun_eq_feed (crc : BitVec 32) (buf : List UInt8) :
    checksumComputeFun crc buf = ~~~feed tableStep (~~~crc) (buf.map byteWord) := by
  have steps : checksumStep = fun crc byte => tableStep (crc ^^^ byteWord byte) := by
    funext crc byte
    exact checksumStep_eq_tableStep crc byte
  rw [checksumComputeFun, steps, BitVec.xor_allOnes, BitVec.xor_allOnes, feed, List.foldl_map]

/-- What the arithmetic shift adds when the register is negative. -/
def signFill (negative : Bool) : BitVec 32 := if negative then 0xff000000#32 else 0#32

theorem getLsbD_signFill (negative : Bool) (i : Nat) :
    (signFill negative).getLsbD i = (negative && decide (24 ≤ i ∧ i < 32)) := by
  have filled : ∀ i : Fin 32, (0xff000000#32).getLsbD i = decide (24 ≤ i.val ∧ i.val < 32) := by
    decide
  cases negative with
  | false => simp [signFill]
  | true =>
      by_cases bound : i < 32
      · exact filled ⟨i, bound⟩
      · have outside : ¬ (24 ≤ i ∧ i < 32) := fun both => bound both.2
        rw [signFill, BitVec.getLsbD_of_ge _ _ (Nat.le_of_not_lt bound), decide_eq_false outside]
        rfl

theorem sshiftRight_eq_signFill (register : BitVec 32) :
    register.sshiftRight 8 = register >>> 8 ^^^ signFill register.msb := by
  apply BitVec.eq_of_getLsbD_eq
  intro i bound
  rw [BitVec.getLsbD_sshiftRight, BitVec.getLsbD_xor, BitVec.getLsbD_ushiftRight, getLsbD_signFill,
    decide_eq_false (Nat.not_le_of_lt bound)]
  by_cases kept : 8 + i < 32
  · have unfilled : ¬ (24 ≤ i ∧ i < 32) := by omega
    simp [kept, unfilled]
  · have outside : register.getLsbD (8 + i) = false :=
      BitVec.getLsbD_of_ge _ _ (Nat.le_of_not_lt kept)
    have filled : 24 ≤ i := by omega
    simp [kept, outside, filled, bound]

theorem getLsbD_lowMask (i : Nat) : (0xff#32).getLsbD i = decide (i < 8) := by
  have mask : 0xff#32 = (BitVec.allOnes 8).setWidth 32 := by decide
  rw [mask, BitVec.getLsbD_setWidth, BitVec.getLsbD_allOnes]
  by_cases low : i < 8
  · simp [low, Nat.lt_trans low (by decide : 8 < 32)]
  · simp [low]

theorem crcShift_eq (register : BitVec 32) :
    crcShift register = crcShift (register &&& 0xff#32) ^^^ register >>> 8 := by
  have parts : register = (register &&& 0xff#32) ^^^ (register &&& ~~~0xff#32) := by
    apply BitVec.eq_of_getLsbD_eq
    intro i bound
    simp only [BitVec.getLsbD_xor, BitVec.getLsbD_and, BitVec.getLsbD_not, bound]
    cases register.getLsbD i <;> cases (0xff#32).getLsbD i <;> rfl
  have clear : ∀ i < 8, (register &&& ~~~0xff#32).getLsbD i = false := by
    intro i low
    rw [BitVec.getLsbD_and, BitVec.getLsbD_not, getLsbD_lowMask, decide_eq_true low]
    simp
  have high : (register &&& ~~~0xff#32) >>> 8 = register >>> 8 := by
    apply BitVec.eq_of_getLsbD_eq
    intro i bound
    simp only [BitVec.getLsbD_ushiftRight, BitVec.getLsbD_and, BitVec.getLsbD_not, getLsbD_lowMask]
    by_cases inside : 8 + i < 32
    · simp [inside]
    · simp [BitVec.getLsbD_of_ge register _ (Nat.le_of_not_lt inside)]
  calc crcShift register
      = crcShift ((register &&& 0xff#32) ^^^ (register &&& ~~~0xff#32)) := by rw [← parts]
    _ = crcShift (register &&& 0xff#32) ^^^ (register &&& ~~~0xff#32) >>> 8 :=
        iterate_shiftBit_split polynomial _ _ 8 clear
    _ = crcShift (register &&& 0xff#32) ^^^ register >>> 8 := by rw [high]

theorem tableStep_eq (register : BitVec 32) :
    tableStep register = crcShift register ^^^ signFill register.msb := by
  rw [tableStep, getD_crc32TabG, sshiftRight_eq_signFill, crcShift_eq register, BitVec.xor_assoc]

/-! ## How far the code drifts from the standard -/

theorem crcShift_linear : XorLinear crcShift := (shiftBit_linear polynomial).iterate 8

theorem signFill_xor (first second : Bool) :
    signFill (first ^^ second) = signFill first ^^^ signFill second := by
  cases first <;> cases second <;> decide

theorem tableStep_linear : XorLinear tableStep := by
  intro x y
  rw [tableStep_eq, tableStep_eq, tableStep_eq, crcShift_linear, BitVec.msb_xor, signFill_xor]
  ac_rfl

@[simp] theorem msb_xor_byteWord (register : BitVec 32) (byte : UInt8) :
    (register ^^^ byteWord byte).msb = register.msb := by
  simp [byteWord, BitVec.msb_setWidth]

/-- Two strings byte by byte. -/
def xorBytes (x y : List UInt8) : List UInt8 := List.zipWith (· ^^^ ·) x y

theorem byteWord_xor (a b : UInt8) : byteWord (a ^^^ b) = byteWord a ^^^ byteWord b := by
  rw [byteWord, UInt8.toBitVec_xor, BitVec.setWidth_xor]
  rfl

theorem length_xorBytes {x y : List UInt8} (sameLength : x.length = y.length) :
    (xorBytes x y).length = x.length := by
  rw [xorBytes, List.length_zipWith, ← sameLength, Nat.min_self]

theorem feed_xorBytes (c d : BitVec 32) {x y : List UInt8} (sameLength : x.length = y.length) :
    feed tableStep (c ^^^ d) ((xorBytes x y).map byteWord) =
      feed tableStep c (x.map byteWord) ^^^ feed tableStep d (y.map byteWord) := by
  have words : (xorBytes x y).map byteWord =
      List.zipWith (· ^^^ ·) (x.map byteWord) (y.map byteWord) := by
    rw [xorBytes, List.map_zipWith, List.zipWith_map]
    simp only [byteWord_xor]
  rw [words]
  apply feed_xor tableStep_linear
  rw [List.length_map, List.length_map]
  exact sameLength

/-- The sign of the standard register before each byte. -/
def signs (register : BitVec 32) : List UInt8 → List Bool
  | [] => []
  | byte :: bytes => register.msb :: signs (crcShift (register ^^^ byteWord byte)) bytes

/-- What has been added to the standard register after steps from registers of these signs. -/
def drift (added : BitVec 32) (negatives : List Bool) : BitVec 32 :=
  negatives.foldl (fun added negative => tableStep added ^^^ signFill negative) added

theorem feed_tableStep (register added : BitVec 32) (bytes : List UInt8) :
    feed tableStep (register ^^^ added) (bytes.map byteWord) =
      feed crcShift register (bytes.map byteWord) ^^^ drift added (signs register bytes) := by
  induction bytes generalizing register added with
  | nil => rfl
  | cons byte bytes inductionHypothesis =>
      have step : tableStep (register ^^^ added ^^^ byteWord byte) =
          crcShift (register ^^^ byteWord byte) ^^^
            (tableStep added ^^^ signFill register.msb) := by
        have regroup : register ^^^ added ^^^ byteWord byte =
            (register ^^^ byteWord byte) ^^^ added := by ac_rfl
        rw [regroup, tableStep_linear, tableStep_eq (register ^^^ byteWord byte), msb_xor_byteWord]
        ac_rfl
      rw [List.map_cons, feed_cons, feed_cons, step, inductionHypothesis]
      rfl

theorem checksumComputeFun_eq_drift (seed : BitVec 32) (bytes : List UInt8) :
    checksumComputeFun seed bytes = crc32 seed bytes ^^^ drift 0#32 (signs (~~~seed) bytes) := by
  have run := feed_tableStep (~~~seed) 0#32 bytes
  rw [BitVec.xor_zero] at run
  rw [checksumComputeFun_eq_feed, run, crc32, BitVec.not_xor_left]

/-- After a string on which the two agree they agree on one byte more exactly when the standard
register, the complement of the code so far, is not negative. -/
theorem agree_append_iff (seed : BitVec 32) (bytes : List UInt8) (byte : UInt8)
    (agree : checksumComputeFun seed bytes = crc32 seed bytes) :
    checksumComputeFun seed (bytes ++ [byte]) = crc32 seed (bytes ++ [byte]) ↔
      (crc32 seed bytes).msb = true := by
  rw [checksumComputeFun_eq_feed, crc32, BitVec.not_inj] at agree
  rw [checksumComputeFun_eq_feed, crc32, crc32, BitVec.not_inj, List.map_append, feed_append,
    feed_append, agree, List.map_singleton, feed_cons, feed_cons, feed_nil, feed_nil, tableStep_eq,
    msb_xor_byteWord, xor_eq_self_iff, BitVec.msb_not]
  cases (feed crcShift (~~~seed) (bytes.map byteWord)).msb <;> simp [signFill]

theorem agree_take_iff (seed : BitVec 32) (bytes : List UInt8) :
    (∀ count ≤ bytes.length,
        checksumComputeFun seed (bytes.take count) = crc32 seed (bytes.take count)) ↔
      ∀ count < bytes.length, (crc32 seed (bytes.take count)).msb = true := by
  have extend (count : Nat) (bound : count < bytes.length)
      (agree : checksumComputeFun seed (bytes.take count) = crc32 seed (bytes.take count)) :=
    agree_append_iff seed (bytes.take count) (bytes.get ⟨count, bound⟩) agree
  simp only [List.get_eq_getElem, List.take_append_getElem] at extend
  constructor
  · intro agree count bound
    exact (extend count bound (agree count (Nat.le_of_lt bound))).mp (agree (count + 1) bound)
  · intro positive count
    induction count with
    | zero => exact fun _ => by simp [checksumComputeFun_eq_feed, crc32]
    | succ count inductionHypothesis =>
        intro bound
        exact (extend count bound (inductionHypothesis (Nat.le_of_succ_le bound))).mpr
          (positive count bound)

/-- The code computes CRC-32 exactly when what it drifts by the signs of the standard register
cancels; it does so on a string and on all its beginnings exactly when no register met before a
byte is negative. -/
theorem checksumComputeFun_eq_crc32_iff (seed : BitVec 32) (bytes : List UInt8) :
    (checksumComputeFun seed bytes = crc32 seed bytes ↔
        drift 0#32 (signs (~~~seed) bytes) = 0#32) ∧
      ((∀ count ≤ bytes.length,
          checksumComputeFun seed (bytes.take count) = crc32 seed (bytes.take count)) ↔
        ∀ count < bytes.length, (crc32 seed (bytes.take count)).msb = true) := by
  refine ⟨?_, agree_take_iff seed bytes⟩
  rw [checksumComputeFun_eq_drift]
  exact xor_eq_self_iff _ _

theorem checksumComputeFun_ne_crc32 :
    checksumComputeFun 0#32 [0x61] = 0x17b7be43#32 ∧ crc32 0#32 [0x61] = 0xe8b7be43#32 ∧
      checksumComputeFun 0#32 [0x61] ≠ crc32 0#32 [0x61] := by
  decide +kernel

/-! ## Strings in pieces -/

theorem checksumComputeFun_append (seed : BitVec 32) (a b : List UInt8) :
    checksumComputeFun (checksumComputeFun seed a) b = checksumComputeFun seed (a ++ b) := by
  simp only [checksumComputeFun_eq_feed, BitVec.not_not, List.map_append, feed_append]

theorem not_xor_three (a b c : BitVec 32) : ~~~(a ^^^ b ^^^ c) = ~~~a ^^^ ~~~b ^^^ ~~~c := by
  have pair : ~~~a ^^^ ~~~b = a ^^^ b := by
    rw [← BitVec.not_xor_left, ← BitVec.not_xor_right, BitVec.not_not]
  rw [pair, ← BitVec.not_xor_right]

/-- Three strings of one length: two of the three inversions cancel, before and after the run. -/
theorem checksumComputeFun_xorBytes (seed : BitVec 32) {x y z : List UInt8}
    (first : x.length = y.length) (second : y.length = z.length) :
    checksumComputeFun seed (xorBytes (xorBytes x y) z) =
      checksumComputeFun seed x ^^^ checksumComputeFun seed y ^^^ checksumComputeFun seed z := by
  have both : (xorBytes x y).length = z.length := by
    rw [length_xorBytes first, first, second]
  have start : ~~~seed ^^^ ~~~seed ^^^ ~~~seed = ~~~seed := by
    rw [BitVec.xor_self, BitVec.zero_xor]
  have run := feed_xorBytes (~~~seed ^^^ ~~~seed) (~~~seed) both
  rw [start, feed_xorBytes _ _ first] at run
  simp only [checksumComputeFun_eq_feed]
  rw [run, not_xor_three]

/-- A checksum can be continued from the checksum of a first part, and it is affine. -/
theorem checksumComputeFun_composes (seed : BitVec 32) :
    (∀ a b : List UInt8,
      checksumComputeFun (checksumComputeFun seed a) b = checksumComputeFun seed (a ++ b)) ∧
    ∀ x y z : List UInt8, x.length = y.length → y.length = z.length →
      checksumComputeFun seed (xorBytes (xorBytes x y) z) =
        checksumComputeFun seed x ^^^ checksumComputeFun seed y ^^^ checksumComputeFun seed z := by
  constructor
  · exact checksumComputeFun_append seed
  · intro x y z first second
    exact checksumComputeFun_xorBytes seed first second

theorem checksumComputeFun_composes_two :
    checksumComputeFun (checksumComputeFun 7#32 [0x74]) [0x72] =
        checksumComputeFun 7#32 [0x74, 0x72] ∧
      checksumComputeFun 7#32 (xorBytes (xorBytes [0x74, 0xf2] [0x66, 0x73]) [0x01, 0x80]) =
        checksumComputeFun 7#32 [0x74, 0xf2] ^^^ checksumComputeFun 7#32 [0x66, 0x73] ^^^
          checksumComputeFun 7#32 [0x01, 0x80] :=
  ⟨(checksumComputeFun_composes 7#32).1 [0x74] [0x72],
    (checksumComputeFun_composes 7#32).2 [0x74, 0xf2] [0x66, 0x73] [0x01, 0x80] rfl rfl⟩

end Tracefs.Crc
