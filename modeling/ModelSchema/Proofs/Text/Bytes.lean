import Mathlib

/-!
# Texts as bytes

A text is kept as bytes, one to four for each character. Offsets into it count bytes, and only some
of them lie between two characters (`IsBoundary`).

* A text begins or ends with another one if its bytes do (`bytes_isPrefix_iff`,
  `bytes_isSuffix_iff`): no character begins inside another one.
* The byte of an ASCII character is found only where that character is (`mem_bytes_iff`), so a text
  can be cut there (`idxOf?_bytes_append`).
-/

namespace ModelSchema.Text

def bytes (s : String) : List UInt8 :=
  s.toByteArray.data.toList

/-- An offset between two characters, or at one of the ends. At any other offset a text cannot be
cut. -/
def IsBoundary (s : String) (offset : Nat) : Prop :=
  (⟨offset⟩ : String.Pos.Raw).IsValid s

instance (s : String) (offset : Nat) : Decidable (IsBoundary s offset) :=
  inferInstanceAs (Decidable (String.Pos.Raw.IsValid s ⟨offset⟩))

/-- The text between two offsets, if both are boundaries. -/
def slice? (s : String) (first last : Nat) : Option String :=
  if h : first ≤ last ∧ IsBoundary s first ∧ IsBoundary s last then
    some (s.extract (s.pos ⟨first⟩ h.2.1) (s.pos ⟨last⟩ h.2.2))
  else none

/-! ## Bytes -/

section Bytes

variable {s t : String}

theorem length_bytes (s : String) : (bytes s).length = s.utf8ByteSize := by
  simp [bytes]

/-- Texts are appended by appending their bytes: no character is split over the seam. -/
theorem bytes_append (s t : String) : bytes (s ++ t) = bytes s ++ bytes t := by
  simp [bytes]

/-- `bytes` is injective, since a text is determined by its byte array. -/
theorem bytes_inj : bytes s = bytes t ↔ s = t := by
  rw [bytes, bytes, Array.toList_inj, ← String.toByteArray_inj]
  exact ⟨ByteArray.ext, fun h => h ▸ rfl⟩

/-- The bytes character by character, for what follows from the encoding of a single one. -/
theorem bytes_eq_flatMap (s : String) : bytes s = s.toList.flatMap String.utf8EncodeChar := by
  rw [bytes, ← String.utf8Encode_toList, List.utf8Encode, List.toList_data_toByteArray]

theorem toByteArray_bytes (s : String) : (bytes s).toByteArray = s.toByteArray := by
  apply ByteArray.ext
  rw [← Array.toList_inj, List.toList_data_toByteArray, bytes]

/-- A text begins with another one if its bytes do. UTF-8 is self-synchronizing: what follows the
bytes of `s` is the start of a character. -/
theorem bytes_isPrefix_iff : bytes s <+: bytes t ↔ s.toList <+: t.toList := by
  constructor
  · rintro ⟨rest, hrest⟩
    apply List.isPrefix_of_utf8Encode_append_eq_utf8Encode rest.toByteArray
    rw [String.utf8Encode_toList, String.utf8Encode_toList, ← toByteArray_bytes s,
      ← toByteArray_bytes t, ← hrest, List.toByteArray_append]
  · rintro ⟨rest, hrest⟩
    rw [bytes_eq_flatMap t, ← hrest, List.flatMap_append, ← bytes_eq_flatMap]
    exact List.prefix_append _ _

/-- The boundaries of a text are the sizes of its prefixes. -/
theorem isBoundary_iff {offset : Nat} :
    IsBoundary s offset ↔ ∃ before after, s = before ++ after ∧ offset = before.utf8ByteSize := by
  rw [IsBoundary, String.Pos.Raw.isValid_iff_exists_append]
  simp [String.Pos.Raw.ext_iff]

/-- A text ends with another one if its bytes do. -/
theorem bytes_isSuffix_iff : bytes s <:+ bytes t ↔ s.toList <:+ t.toList := by
  constructor
  · rintro ⟨rest, hrest⟩
    -- The bytes of `s` are a text, so they begin at a boundary.
    have hboundary : IsBoundary t rest.length := by
      rw [IsBoundary, String.Pos.Raw.isValid_iff_isValidUTF8_extract_utf8ByteSize,
        String.Pos.Raw.le_iff, String.byteIdx_rawEndPos, ← length_bytes, ← toByteArray_bytes t,
        ← hrest, List.toByteArray_append, toByteArray_bytes,
        ByteArray.extract_append_eq_right (by simp) (by simp [length_bytes])]
      exact ⟨by simp, s.isValidUTF8⟩
    obtain ⟨before, after, rfl, hlength⟩ := isBoundary_iff.mp hboundary
    rw [bytes_append] at hrest
    have hafter := (List.append_inj hrest (by rw [hlength, length_bytes])).2
    rw [String.toList_append, bytes_inj.mp hafter]
    exact List.suffix_append _ _
  · rintro ⟨rest, hrest⟩
    rw [bytes_eq_flatMap t, ← hrest, List.flatMap_append, ← bytes_eq_flatMap s]
    exact List.suffix_append _ _

end Bytes

/-! ## ASCII characters -/

section Ascii

variable {c : Char} {s : String}

theorem toNat_toUInt8 (hc : c.toNat < 128) : c.toUInt8.toNat = c.toNat := by
  have hval : c.toUInt8.toNat = c.toNat % 256 := rfl
  omega

/-- All bytes of a character beyond ASCII are beyond ASCII: every branch of `String.utf8EncodeChar`
sets the highest bit. -/
theorem mem_utf8EncodeChar_iff (hc : c.toNat < 128) {d : Char} :
    c.toUInt8 ∈ String.utf8EncodeChar d ↔ c = d := by
  have hd : d.val.toNat = d.toNat := rfl
  rw [← Char.toNat_inj, String.utf8EncodeChar, hd]
  split_ifs <;>
    simp only [List.mem_cons, List.not_mem_nil, or_false, ← UInt8.toNat_inj, UInt8.toNat_ofNat',
      toNat_toUInt8 hc] <;>
    omega

theorem utf8EncodeChar_eq_singleton (hc : c.toNat < 128) :
    String.utf8EncodeChar c = [c.toUInt8] := by
  refine String.utf8EncodeChar_eq_singleton (Char.utf8Size_eq_one_iff.mpr ?_)
  rw [UInt32.le_iff_toNat_le]
  exact Nat.le_of_lt_succ hc

/-- The byte of an ASCII character is found only where that character is. A search on bytes and a
search on characters have the same hits. -/
theorem mem_bytes_iff (hc : c.toNat < 128) : c.toUInt8 ∈ bytes s ↔ c ∈ s.toList := by
  simp [bytes_eq_flatMap, mem_utf8EncodeChar_iff hc]

/-- The offset of the first `c` is the number of bytes before it. -/
theorem idxOf?_bytes_append (hc : c.toNat < 128) (hs : c ∉ s.toList) (t : String) :
    (bytes (s ++ String.singleton c ++ t)).idxOf? c.toUInt8 = some s.utf8ByteSize := by
  have hbytes : bytes (String.singleton c) = [c.toUInt8] := by
    simp [bytes_eq_flatMap, utf8EncodeChar_eq_singleton hc]
  have hnone : (bytes s).idxOf? c.toUInt8 = none := by
    rw [List.idxOf?_eq_none_iff, mem_bytes_iff hc]
    exact hs
  rw [List.idxOf?] at hnone ⊢
  rw [bytes_append, bytes_append, hbytes, List.append_assoc, List.findIdx?_append, hnone]
  simp [List.findIdx?_cons, length_bytes]

end Ascii

/-! ## Slices -/

/-- `slice?` on a text that is given in three parts finds the middle one: the sizes of the parts are
boundaries by `isBoundary_iff`. -/
theorem slice?_eq_some {s middle : String} {first last : Nat} (before after : String)
    (hs : s = before ++ middle ++ after) (hfirst : first = before.utf8ByteSize)
    (hlast : last = before.utf8ByteSize + middle.utf8ByteSize) :
    slice? s first last = some middle := by
  subst hs hfirst hlast
  have hstart : IsBoundary (before ++ middle ++ after) before.utf8ByteSize :=
    isBoundary_iff.mpr ⟨before, middle ++ after, String.append_assoc, rfl⟩
  have hend : IsBoundary (before ++ middle ++ after)
      (before.utf8ByteSize + middle.utf8ByteSize) :=
    isBoundary_iff.mpr ⟨before ++ middle, after, rfl, String.utf8ByteSize_append.symm⟩
  rw [slice?, dif_pos ⟨Nat.le_add_right _ _, hstart, hend⟩]
  refine congrArg some (String.toByteArray_inj.mp ?_)
  -- The bytes before the slice are dropped, then those after it.
  calc (before ++ middle ++ after).toByteArray.extract before.utf8ByteSize
        (before.utf8ByteSize + middle.utf8ByteSize)
    _ = (before.toByteArray ++ (middle.toByteArray ++ after.toByteArray)).extract
          (before.toByteArray.size + 0) (before.toByteArray.size + middle.toByteArray.size) := by
        rw [String.toByteArray_append, String.toByteArray_append, ByteArray.append_assoc]
        rfl
    _ = (middle.toByteArray ++ after.toByteArray).extract 0 middle.toByteArray.size :=
        ByteArray.extract_append_size_add
    _ = middle.toByteArray := ByteArray.extract_append_eq_left rfl

end ModelSchema.Text
