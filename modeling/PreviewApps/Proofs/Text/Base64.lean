import PreviewApps.Text.Base64

/-! What is written in base 64 is read back. -/

namespace PreviewApps.Base64

theorem sextet?_symbol {n : Nat} (h : n < 64) : sextet? (symbol n) = some n := by
  have hall : ∀ n < 64, sextet? (symbol n) = some n := by decide +kernel
  exact hall n h

theorem symbol_ne_padding {n : Nat} (h : n < 64) : symbol n ≠ '=' := by
  have hall : ∀ n < 64, symbol n ≠ '=' := by decide +kernel
  exact hall n h

theorem ofNat_eq_of_toNat_eq {n : Nat} {a : UInt8} (h : n = a.toNat) : UInt8.ofNat n = a := by
  rw [h, UInt8.ofNat_toNat]

theorem decode_group {n : Nat} (hn : n < 16777216) (r : List Char) :
    decode (symbol (n / 262144) :: symbol (n / 4096 % 64) :: symbol (n / 64 % 64) ::
        symbol (n % 64) :: r) =
      (decode r).map fun rest =>
        UInt8.ofNat (n / 65536) :: UInt8.ofNat (n / 256 % 256) :: UInt8.ofNat (n % 256) ::
          rest := by
  have hw : n / 262144 < 64 := by omega
  have hx : n / 4096 % 64 < 64 := by omega
  have hy : n / 64 % 64 < 64 := by omega
  have hz : n % 64 < 64 := by omega
  have hsum : n / 262144 * 262144 + n / 4096 % 64 * 4096 + n / 64 % 64 * 64 + n % 64 = n := by
    omega
  rw [decode]
  · simp only [sextet?_symbol hw, sextet?_symbol hx, sextet?_symbol hy, sextet?_symbol hz, bind,
      Option.bind_some, hsum]
    cases decode r <;> rfl
  · exact fun h _ _ => symbol_ne_padding hy h
  · exact fun h _ => symbol_ne_padding hz h

theorem decode_encode (bytes : List UInt8) : decode (encode bytes) = some bytes := by
  induction bytes using encode.induct with
  | case1 a b c r ih =>
    have ha := a.toNat_lt
    have hb := b.toNat_lt
    have hc := c.toNat_lt
    rw [encode, decode_group (by omega), ih, Option.map_some]
    rw [ofNat_eq_of_toNat_eq (a := a) (by omega), ofNat_eq_of_toNat_eq (a := b) (by omega),
      ofNat_eq_of_toNat_eq (a := c) (by omega)]
  | case2 a b =>
    have ha := a.toNat_lt
    have hb := b.toNat_lt
    have hy : (a.toNat * 256 + b.toNat) % 16 * 4 < 64 := by omega
    rw [encode, decode]
    · simp only [sextet?_symbol (show (a.toNat * 256 + b.toNat) / 1024 < 64 by omega),
        sextet?_symbol (show (a.toNat * 256 + b.toNat) / 16 % 64 < 64 by omega),
        sextet?_symbol hy, bind, Option.bind_some]
      rw [ofNat_eq_of_toNat_eq (a := a) (by omega), ofNat_eq_of_toNat_eq (a := b) (by omega)]
    · exact symbol_ne_padding hy
  | case3 a =>
    have ha := a.toNat_lt
    rw [encode, decode]
    simp only [sextet?_symbol (show a.toNat / 4 < 64 by omega),
      sextet?_symbol (show a.toNat % 4 * 16 < 64 by omega), bind, Option.bind_some]
    rw [ofNat_eq_of_toNat_eq (a := a) (by omega)]
  | case4 => rfl

theorem toText?_ofText (s : String) : toText? (ofText s) = some s := by
  rw [toText?, ofText, String.toList_ofList, decode_encode]
  show String.fromUTF8? s.toUTF8 = some s
  rw [String.fromUTF8?, String.toUTF8_eq_toByteArray, dif_pos s.isValidUTF8]
  rfl

end PreviewApps.Base64
