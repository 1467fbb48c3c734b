import Mathlib.Logic.Function.Basic
import Mathlib.Algebra.Group.Nat.Basic

/-!
# Sming.WString.Layout

The bytes of a `String` object. `String` is a union of `PtrBuf` (three words: `buffer`, `len`
and `capacity`) and `SsoBuf` (`SSO_CAPACITY + 1` characters, then one byte holding the 7-bit
`len` and the 1-bit `set`). On the little-endian targets Sming builds for, a word is stored
low byte first, and the first bit-field of a byte takes its low bits.

* `Config`: `STRING_OBJECT_SIZE` and the word size, with the four `static_assert`s as fields.
* `readLE` and `writeLE`: a little-endian word. `readLE_writeLE` reads back what was written;
  `writeLE_frame` and `readLE_congr` say a write leaves every byte outside its word alone.
-/

namespace Sming
namespace WString

/-- A build configuration: `STRING_OBJECT_SIZE` and `sizeof(char*)`, which is also
`sizeof(size_t)`, in bytes. A configuration the four `static_assert`s reject does not compile,
so they are fields: `SsoBuf` (`SSO_CAPACITY + 1` characters and one byte of bit-fields) fills
the object exactly, `PtrBuf` fits in it, it has at most 128 bytes, and it is a multiple of 4. -/
structure Config where
  objectSize : Nat
  wordSize : Nat
  wordSize_pos : 0 < wordSize
  ssoBuf_size : objectSize = (objectSize - 2 + 1) + 1
  ptrBuf_fits : 3 * wordSize ≤ objectSize
  objectSize_le : objectSize ≤ 128
  objectSize_dvd : objectSize % 4 = 0

/-- `SSO_CAPACITY`: the characters `SsoBuf` holds, not counting the terminator. -/
def Config.ssoCapacity (c : Config) : Nat := c.objectSize - 2

/-- The default build for the 32-bit targets: 12 bytes, an SSO capacity of 10. -/
def Config.default32 : Config := ⟨12, 4, by decide, by decide, by decide, by decide, by decide⟩

theorem Config.ssoCapacity_lt (c : Config) : c.ssoCapacity < 127 := by
  have := c.objectSize_le
  have := c.ssoBuf_size
  unfold Config.ssoCapacity
  omega

/-- The little-endian word of `w` bytes at `off`. -/
def readLE (b : Nat → UInt8) (off : Nat) : Nat → Nat
  | 0 => 0
  | w + 1 => readLE b off w + (b (off + w)).toNat * 256 ^ w

/-- `b` with the little-endian `w`-byte word at `off` set to `v`, modulo `256 ^ w`. -/
def writeLE (b : Nat → UInt8) (off w v : Nat) : Nat → UInt8 :=
  fun i => if off ≤ i ∧ i < off + w then UInt8.ofNat (v / 256 ^ (i - off)) else b i

theorem UInt8.toNat_ofNat' (n : Nat) : (UInt8.ofNat n).toNat = n % 256 := by
  simp [UInt8.toNat, UInt8.ofNat, BitVec.toNat_ofNat]

theorem writeLE_frame {b : Nat → UInt8} {off w v i : Nat} (h : i < off ∨ off + w ≤ i) :
    writeLE b off w v i = b i := by
  unfold writeLE
  rw [if_neg (by omega)]

theorem readLE_congr {b b' : Nat → UInt8} {off : Nat} :
    ∀ {w : Nat}, (∀ i, off ≤ i → i < off + w → b i = b' i) →
      readLE b off w = readLE b' off w
  | 0, _ => rfl
  | w + 1, h => by
    simp only [readLE]
    rw [readLE_congr (fun i h1 h2 => h i h1 (by omega)), h (off + w) (by omega) (by omega)]

/-- A write to a word disjoint from the one read leaves the read alone. -/
theorem readLE_writeLE_of_disjoint {b : Nat → UInt8} {off w off' w' v : Nat}
    (h : off + w ≤ off' ∨ off' + w' ≤ off) :
    readLE (writeLE b off' w' v) off w = readLE b off w :=
  readLE_congr fun _ _ _ => writeLE_frame (by omega)

theorem readLE_lt (b : Nat → UInt8) (off : Nat) : ∀ w, readLE b off w < 256 ^ w
  | 0 => by simp [readLE]
  | w + 1 => by
    have := readLE_lt b off w
    have := (b (off + w)).toNat_lt_size
    simp only [readLE, Nat.pow_succ]
    have : (b (off + w)).toNat * 256 ^ w ≤ 255 * 256 ^ w :=
      Nat.mul_le_mul_right _ (by simp only [UInt8.size] at *; omega)
    omega

/-- A word whose bytes are all `0xFF` is `256 ^ w - 1`. -/
theorem readLE_of_ff {b : Nat → UInt8} {off : Nat} :
    ∀ {w : Nat}, (∀ i, off ≤ i → i < off + w → b i = 255) → readLE b off w = 256 ^ w - 1
  | 0, _ => rfl
  | w + 1, h => by
    have hpos : 0 < 256 ^ w := Nat.pos_pow_of_pos w (by decide)
    simp only [readLE]
    rw [readLE_of_ff (fun i h1 h2 => h i h1 (by omega)), h (off + w) (by omega) (by omega),
      Nat.pow_succ]
    show 256 ^ w - 1 + 255 * 256 ^ w = 256 ^ w * 256 - 1
    omega

theorem readLE_writeLE (b : Nat → UInt8) (off w v : Nat) :
    readLE (writeLE b off w v) off w = v % 256 ^ w := by
  suffices h : ∀ k, k ≤ w → readLE (writeLE b off w v) off k = v % 256 ^ k from
    h w (Nat.le_refl w)
  intro k
  induction k with
  | zero => simp [readLE, Nat.mod_one]
  | succ k ih =>
    intro hk
    have h1 : off ≤ off + k ∧ off + k < off + w := ⟨by omega, by omega⟩
    rw [readLE, ih (by omega), Nat.mod_pow_succ, Nat.mul_comm (256 ^ k)]
    simp only [writeLE, if_pos h1, Nat.add_sub_cancel_left, UInt8.toNat_ofNat']

/-- Byte `k` of a little-endian word is the word's `k`-th base-256 digit. -/
theorem readLE_digit (b : Nat → UInt8) (off : Nat) :
    ∀ {w k : Nat}, k < w → readLE b off w / 256 ^ k % 256 = (b (off + k)).toNat
  | w + 1, k, h => by
    have hx := (b (off + w)).toNat_lt_size
    have hpos : 0 < 256 ^ k := Nat.pos_pow_of_pos k (by decide)
    simp only [readLE]
    rcases Nat.lt_succ_iff_lt_or_eq.1 h with hk | rfl
    · obtain ⟨j, rfl⟩ : ∃ j, w = k + (j + 1) := ⟨w - k - 1, by omega⟩
      rw [show (b (off + (k + (j + 1)))).toNat * 256 ^ (k + (j + 1)) =
          (b (off + (k + (j + 1)))).toNat * 256 ^ j * 256 * 256 ^ k by
        rw [Nat.pow_add, Nat.pow_succ]; ac_rfl,
        Nat.add_mul_div_right _ _ hpos, Nat.add_mul_mod_self_right, readLE_digit b off hk]
    · rw [Nat.add_mul_div_right _ _ hpos, Nat.div_eq_of_lt (readLE_lt b off k), Nat.zero_add,
        Nat.mod_eq_of_lt hx]

/-- Writing back the word just read changes nothing. -/
theorem writeLE_readLE (b : Nat → UInt8) (off w : Nat) :
    writeLE b off w (readLE b off w) = b := by
  funext i
  unfold writeLE
  split
  · next h =>
    apply UInt8.toNat.inj
    rw [UInt8.toNat_ofNat', readLE_digit b off (by omega : i - off < w), Nat.add_sub_cancel' h.1]
  · rfl

end WString
end Sming
