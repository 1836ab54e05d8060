import CodeListing.Text.HexBytes

/-!
# Bytes written in hexadecimal are read back

A blank is a gap, and the two digits of a byte are the UTF-8 bytes of two characters that are no
gaps.  So what is left of the text of some bytes (`digits_encode`) is cut into the pairs of digits
that were written, and each pair is read as its byte (`pairByte_digits`).
-/

set_option autoImplicit false

namespace CodeListing.Text.HexBytes

/-- The loop that lists an array appends what is left of it to the reversed front. -/
theorem toList_loop (bytes : ByteArray) (i : Nat) (front : List UInt8) :
    ByteArray.toList.loop bytes i front = front.reverse ++ bytes.data.toList.drop i := by
  fun_induction ByteArray.toList.loop bytes i front with
  | case1 i front hlt ih =>
    have hi : i < bytes.data.toList.length := by simpa using hlt
    rw [ih, List.drop_eq_getElem_cons hi]
    simp [ByteArray.get!, hlt]
  | case2 i front hge =>
    rw [List.drop_eq_nil_of_le (by simpa using Nat.le_of_not_lt hge)]
    simp

/-- The UTF-8 bytes of a text are those of its characters, one after the other. -/
theorem toList_toUTF8 (text : String) :
    text.toUTF8.toList = text.toList.flatMap String.utf8EncodeChar := by
  have hbytes : text.toUTF8.data.toList = text.toList.flatMap String.utf8EncodeChar := by
    conv => lhs; rw [← String.ofList_toList (s := text)]
    exact List.toList_data_toByteArray
  rw [ByteArray.toList, toList_loop, hbytes]
  rfl

/-- The UTF-8 bytes of the two digits of a byte. -/
def digitBytes (b : UInt8) : List UInt8 :=
  (byteDigits b).flatMap String.utf8EncodeChar

/-- The two digits that are written for a byte are read as this byte. -/
theorem pairByte_digits (b : UInt8) :
    ∃ high low, digitBytes b = [high, low] ∧ isGap high = false ∧ isGap low = false ∧
      pairByte high low = .ok b := by
  have hall : ∀ n < 256, let digits := digitBytes (UInt8.ofNat n)
      digits = [digits.headD 0, digits.getLastD 0] ∧ isGap (digits.headD 0) = false ∧
        isGap (digits.getLastD 0) = false ∧
        (pairByte (digits.headD 0) (digits.getLastD 0)).toOption = some (UInt8.ofNat n) := by
    decide +kernel
  obtain ⟨hdigits, hhigh, hlow, hread⟩ := hall b.toNat b.toNat_lt
  rw [UInt8.ofNat_toNat] at hdigits hhigh hlow hread
  refine ⟨_, _, hdigits, hhigh, hlow, ?_⟩
  cases hpair : pairByte ((digitBytes b).headD 0) ((digitBytes b).getLastD 0) with
  | error fault =>
    rw [hpair] at hread
    cases hread
  | ok byte =>
    rw [hpair] at hread
    cases hread
    rfl

/-- No digit is a gap. -/
theorem filter_digitBytes (b : UInt8) :
    (digitBytes b).filter (fun x => !isGap x) = digitBytes b := by
  obtain ⟨high, low, hdigits, hhigh, hlow, -⟩ := pairByte_digits b
  rw [hdigits]
  simp [hhigh, hlow]

/-- Without the gaps, the digits of the bytes are left. -/
theorem digits_encode (bytes : List UInt8) :
    (encode bytes).toUTF8.toList.filter (fun x => !isGap x) = bytes.flatMap digitBytes := by
  rw [toList_toUTF8, encode, String.toList_ofList]
  induction bytes with
  | nil => rfl
  | cons b rest ih =>
    cases rest with
    | nil => simpa [digitBytes] using filter_digitBytes b
    | cons next rest =>
      have hblank : (String.utf8EncodeChar ' ').filter (fun x => !isGap x) = [] := by decide
      have hfirst : ((byteDigits b).flatMap String.utf8EncodeChar).filter (fun x => !isGap x) =
          digitBytes b := filter_digitBytes b
      rw [List.map_cons, List.map_cons, List.intercalate_cons_cons, ← List.map_cons,
        List.flatMap_append, List.flatMap_append, List.filter_append, List.filter_append, ih,
        List.flatMap_singleton, hblank, hfirst, List.append_nil]
      rfl

/-- The number of digits is even. -/
theorem length_flatMap_digitBytes (bytes : List UInt8) :
    (bytes.flatMap digitBytes).length % 2 = 0 := by
  induction bytes with
  | nil => rfl
  | cons b rest ih =>
    obtain ⟨high, low, hdigits, -⟩ := pairByte_digits b
    rw [List.flatMap_cons, hdigits, List.length_append, List.length_cons, List.length_singleton]
    omega

/-- The digits that are written for bytes are read as these bytes. -/
theorem pairBytes_flatMap_digitBytes (bytes : List UInt8) :
    pairBytes (bytes.flatMap digitBytes) = .ok bytes := by
  induction bytes with
  | nil => rfl
  | cons b rest ih =>
    obtain ⟨high, low, hdigits, -, -, hpair⟩ := pairByte_digits b
    rw [List.flatMap_cons, hdigits, List.cons_append, List.cons_append, List.nil_append, pairBytes,
      hpair, ih]
    rfl

/-- The text of some bytes stands for these bytes. -/
theorem decode_encode (bytes : List UInt8) : decode (encode bytes) = .ok bytes := by
  simp only [decode, digits_encode, length_flatMap_digitBytes, pairBytes_flatMap_digitBytes]
  rfl

end CodeListing.Text.HexBytes
