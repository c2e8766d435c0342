import VideoCatalog.Catalog.DataUrl

/-!
# Base sixty-four is read as it was written

The reader takes one character after another: the first of a group of four gives the leading bits
of a byte, each of the other three completes one. An incomplete group ends at its padding.

* `base64Value?_base64Char`: the value of a character.
* `base64Bytes?_first`, `base64Bytes?_next`: what a character does in its group.
* `base64Bytes?_one`, `base64Bytes?_two`, `base64Bytes?_three`: the bytes of a group.
* `base64Decode?_base64`: all bytes are read as they were written.
-/

namespace VideoCatalog

theorem base64Value?_base64Char : ∀ n < 64, base64Value? (base64Char n) = some n := by decide

theorem base64Char_ne_pad : ∀ n < 64, base64Char n ≠ '=' := by decide

theorem ascii_base64Char (n : Nat) : (base64Char n).toNat < 0x80 := by
  have digits : ∀ n < 64, (base64Char n).toNat < 0x80 := by decide
  by_cases small : n < 64
  · exact digits n small
  · have slash : base64Char n = '/' := by
      simp only [base64Char]
      repeat rw [if_neg (by omega)]
    rw [slash]
    decide

/-- The first character of a group leaves its bits for the next one. -/
theorem base64Bytes?_first {n : Nat} (small : n < 64) (left pads : Nat) (rest : List Char) :
    base64Bytes? 0 left pads (base64Char n :: rest) = base64Bytes? 1 n 0 rest := by
  rw [base64Bytes?, if_neg (base64Char_ne_pad n small), base64Value?_base64Char n small]
  rfl

/-- A later character completes a byte with its leading bits and leaves the others. -/
theorem base64Bytes?_next {place after left value n : Nat} (byte : UInt8) (up down : Nat)
    (later : place ≠ 0) (follows : (if place = 3 then 0 else place + 1) = after) (small : n < 64)
    (shift : Nat.pow 2 (2 * place) = up) (cut : Nat.pow 2 (6 - 2 * place) = down)
    (whole : left * up + n / down = byte.toNat) (others : n % down = value) (pads : Nat)
    (rest : List Char) :
    base64Bytes? place left pads (base64Char n :: rest) =
      (base64Bytes? after value 0 rest).map (byte :: ·) := by
  have made : UInt8.ofNat (left * up + n / down) = byte :=
    (congrArg UInt8.ofNat whole).trans UInt8.ofNat_toNat
  rw [base64Bytes?, if_neg (base64Char_ne_pad n small), base64Value?_base64Char n small]
  dsimp only
  rw [if_neg later, follows, shift, cut, made, others]

section

variable (a b c : UInt8) (rest : List Char)

/-- The first two characters of a group give its first byte, and leave bits of the second one. -/
theorem base64Bytes?_one : base64Bytes? 0 0 0 (base64Char (a.toNat / 4) ::
    base64Char (a.toNat % 4 * 16 + b.toNat / 16) :: rest) =
      (base64Bytes? 2 (b.toNat / 16) 0 rest).map (a :: ·) := by
  have := a.toNat_lt
  have := b.toNat_lt
  rw [base64Bytes?_first (by omega), base64Bytes?_next a 4 16 (by decide)
    (if_neg (by decide)) (by omega) rfl rfl (by omega) rfl]
  congr 2
  omega

/-- The third one completes the second byte, and leaves bits of the third one. -/
theorem base64Bytes?_two : base64Bytes? 2 (b.toNat / 16) 0
    (base64Char (b.toNat % 16 * 4 + c.toNat / 64) :: rest) =
      (base64Bytes? 3 (c.toNat / 64) 0 rest).map (b :: ·) := by
  have := b.toNat_lt
  have := c.toNat_lt
  rw [base64Bytes?_next b 16 4 (by decide) (if_neg (by decide)) (by omega) rfl rfl (by omega) rfl]
  congr 2
  omega

/-- The fourth one completes the third byte. -/
theorem base64Bytes?_three : base64Bytes? 3 (c.toNat / 64) 0 (base64Char (c.toNat % 64) :: rest) =
    (base64Bytes? 0 0 0 rest).map (c :: ·) := by
  have := c.toNat_lt
  rw [base64Bytes?_next c 64 1 (by decide) (if_pos rfl) (by omega) rfl rfl (by omega) rfl]
  congr 2
  omega

end

/-- A group that is not complete ends at its padding. -/
theorem base64Bytes?_padding : base64Bytes? 2 0 0 ['=', '='] = some [] ∧
    base64Bytes? 3 0 0 ['='] = some [] := ⟨rfl, rfl⟩

/-- The characters of some bytes are read as these bytes. -/
theorem base64Bytes?_base64 (bytes : List UInt8) :
    base64Bytes? 0 0 0 (base64 bytes) = some bytes := by
  fun_induction base64 bytes with
  | case1 => rfl
  | case2 a =>
    have first := base64Bytes?_one a 0 ['=', '=']
    simp only [UInt8.toNat_zero, Nat.zero_div, Nat.add_zero, base64Bytes?_padding.1] at first
    exact first
  | case3 a b =>
    have first := base64Bytes?_one a b [base64Char (b.toNat % 16 * 4), '=']
    have second := base64Bytes?_two b 0 ['=']
    simp only [UInt8.toNat_zero, Nat.zero_div, Nat.add_zero, base64Bytes?_padding.2] at second
    rw [first, second]
    rfl
  | case4 a b c rest ih =>
    rw [base64Bytes?_one, base64Bytes?_two, base64Bytes?_three, ih]
    rfl

theorem ascii_base64 (bytes : List UInt8) : ∀ c ∈ base64 bytes, c.toNat < 0x80 := by
  fun_induction base64 bytes with
  | case1 => simp
  | case2 | case3 => simp [ascii_base64Char]
  | case4 a b c rest ih => simpa [ascii_base64Char] using ih

/-- What is written for some bytes is read as these bytes. -/
theorem base64Decode?_base64 (bytes : List UInt8) : base64Decode? (base64 bytes) = some bytes := by
  have ascii : (base64 bytes).all (·.toNat < 0x80) = true :=
    List.all_eq_true.2 fun c mem => decide_eq_true (ascii_base64 bytes c mem)
  rw [base64Decode?, if_pos ascii, base64Bytes?_base64]

end VideoCatalog
