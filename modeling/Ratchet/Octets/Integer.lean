import Ratchet.Octets.Basic

/-!
# Numbers as bytes

The two orders in which a number is written as bytes: least significant byte
first (`littleEndian`, used by the curve arithmetic and by the storage layout)
and most significant byte first (`bigEndian`, used by the hash functions).

Writing in `n` bytes and reading back gives the number modulo `256 ^ n`
(`ofLittleEndian_littleEndian`), and reading never gives more than `n` bytes can
hold (`ofLittleEndian_lt`). Powers are written with `Nat.pow`, which is the same
power whatever else is in scope.
-/

set_option autoImplicit false

namespace Ratchet

/-- The number whose bytes are these, least significant first. -/
def ofLittleEndian : Bytes → Nat
  | [] => 0
  | byte :: rest => byte.toNat + 256 * ofLittleEndian rest

/-- The `count` least significant bytes of a number, least significant first. -/
def littleEndian : (count : Nat) → Nat → Bytes
  | 0, _ => []
  | count + 1, number => UInt8.ofNat number :: littleEndian count (number / 256)

/-- The `count` least significant bytes of a number, most significant first. -/
def bigEndian (count number : Nat) : Bytes := (littleEndian count number).reverse

@[simp]
theorem length_littleEndian (count number : Nat) : (littleEndian count number).length = count := by
  induction count generalizing number with
  | zero => rfl
  | succ count hypothesis => simp [littleEndian, hypothesis]

theorem ofLittleEndian_lt (bytes : Bytes) : ofLittleEndian bytes < Nat.pow 256 bytes.length := by
  rw [Nat.pow_eq]
  induction bytes with
  | nil => simp [ofLittleEndian]
  | cons byte rest hypothesis =>
    have bound := byte.toNat_lt
    simp only [ofLittleEndian, List.length_cons, Nat.pow_succ]
    omega

theorem ofLittleEndian_littleEndian (count number : Nat) :
    ofLittleEndian (littleEndian count number) = number % Nat.pow 256 count := by
  rw [Nat.pow_eq]
  induction count generalizing number with
  | zero => simp [littleEndian, ofLittleEndian, Nat.mod_one]
  | succ count hypothesis =>
    have power : 256 ^ (count + 1) = 256 * 256 ^ count := by rw [Nat.pow_succ, Nat.mul_comm]
    rw [power, Nat.mod_mul]
    simp only [littleEndian, ofLittleEndian, hypothesis, UInt8.toNat_ofNat']

theorem littleEndian_ofLittleEndian (bytes : Bytes) :
    littleEndian bytes.length (ofLittleEndian bytes) = bytes := by
  induction bytes with
  | nil => rfl
  | cons byte rest hypothesis =>
    have bound := byte.toNat_lt
    have low : UInt8.ofNat (byte.toNat + 256 * ofLittleEndian rest) = byte := by
      apply UInt8.toNat_inj.1
      simp only [UInt8.toNat_ofNat']
      omega
    have high : (byte.toNat + 256 * ofLittleEndian rest) / 256 = ofLittleEndian rest := by omega
    simp only [ofLittleEndian, List.length_cons, littleEndian, low, high, hypothesis]

namespace Octets

/-- A number written in `n` bytes, least significant first; what does not fit is dropped. -/
def ofNat (n number : Nat) : Octets n := ⟨littleEndian n number, length_littleEndian n number⟩

/-- The number whose bytes are these, least significant first. -/
def toNat {n : Nat} (octets : Octets n) : Nat := ofLittleEndian octets.toList

theorem toNat_lt {n : Nat} (octets : Octets n) : octets.toNat < Nat.pow 256 n := by
  have bound := ofLittleEndian_lt octets.toList
  rwa [octets.length_toList] at bound

theorem toNat_ofNat (n number : Nat) : (ofNat n number).toNat = number % Nat.pow 256 n :=
  ofLittleEndian_littleEndian n number

@[simp]
theorem ofNat_toNat {n : Nat} (octets : Octets n) : ofNat n octets.toNat = octets := by
  apply ext
  have whole := littleEndian_ofLittleEndian octets.toList
  rw [octets.length_toList] at whole
  exact whole

end Octets

end Ratchet
