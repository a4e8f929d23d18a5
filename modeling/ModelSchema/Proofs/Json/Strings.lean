import Mathlib
import ModelSchema.Json.Parser
import ModelSchema.Json.Printer

/-!
# Strings read back

Every character is written in a way that a reader takes for that character alone
(`stringRest?_escape`), so a quoted string is read up to its closing quote and no further
(`string?_quoted`).
-/

namespace ModelSchema.Json

/-! ## Control characters -/

/-- `hexDigit` writes the last digit of a number, so only the remainder comes back. -/
theorem hexValue?_hexDigit (n : Nat) : hexValue? (hexDigit n) = some (n % 16) := by
  have hdigit : ∀ d < 16, hexValue? (Nat.digitChar d) = some d := by decide
  exact hdigit (n % 16) (Nat.mod_lt n (by decide))

/-- Two hexadecimal digits after two zeros are read as the character they were made of. -/
theorem hexUnit?_control {n : Nat} (h : n < 0x20) :
    hexUnit? '0' '0' (hexDigit (n / 16)) (hexDigit n) = some n := by
  have hzero : hexValue? '0' = some 0 := by decide
  simp only [hexUnit?, hexValue?_hexDigit, hzero, Option.pure_def, Option.bind_eq_bind,
    Option.bind_some, Option.some.injEq]
  omega

/-! ## Characters -/

/-- A string read so far without half a surrogate pair in it. -/
def Pending.whole (chars : List Char) : Pending := ⟨chars, none, false⟩

theorem push_whole (chars : List Char) (c : Char) :
    (Pending.whole chars).push c = .whole (c :: chars) := rfl

/-- Units below the surrogates are characters of their own. Only control characters are written as
units. -/
theorem pushUnit_whole (chars : List Char) {n : Nat} (h : n < 0x20) :
    (Pending.whole chars).pushUnit n = .whole (Char.ofNat n :: chars) := by
  have hhigh : isHighSurrogate n = false := by simp [isHighSurrogate]; omega
  have hlow : isLowSurrogate n = false := by simp [isLowSurrogate]; omega
  simp [Pending.pushUnit, Pending.whole, hhigh, hlow, Pending.push]

/-- Escapes of one letter, the one that announces digits apart. -/
theorem stringRest?_letter (chars rest : List Char) {letter c : Char}
    (hc : unescape? letter = some c) (hu : letter ≠ 'u') :
    stringRest? (.whole chars) ('\\' :: letter :: rest) =
      stringRest? (.whole (c :: chars)) rest := by
  rw [stringRest?.eq_def]
  simp [hc, hu, push_whole]

/-- A character is read back from the way it is written, and nothing else is read with it. -/
theorem stringRest?_escape (chars : List Char) (c : Char) (rest : List Char) :
    stringRest? (.whole chars) (escape c ++ rest) = stringRest? (.whole (c :: chars)) rest := by
  have hchar {n : Nat} (h : c.toNat = n) : Char.ofNat n = c := h ▸ Char.ofNat_toNat c
  rw [escape]
  split_ifs with hquote hslash hcontrol hb ht hn hf hr
  · exact stringRest?_letter chars rest (by rw [hquote]; rfl) (by decide)
  · exact stringRest?_letter chars rest (by rw [hslash]; rfl) (by decide)
  -- Five control characters have letters of their own.
  · exact stringRest?_letter chars rest (congrArg some (hchar hb)) (by decide)
  · exact stringRest?_letter chars rest (congrArg some (hchar ht)) (by decide)
  · exact stringRest?_letter chars rest (congrArg some (hchar hn)) (by decide)
  · exact stringRest?_letter chars rest (congrArg some (hchar hf)) (by decide)
  · exact stringRest?_letter chars rest (congrArg some (hchar hr)) (by decide)
  · simp [stringRest?, hexUnit?_control hcontrol, pushUnit_whole chars hcontrol]
  · rw [List.singleton_append, stringRest?.eq_def]
    simp [hslash, hcontrol, push_whole]

/-! ## Strings -/

/-- By induction on the string. The closing quote cannot be one of its characters, as those are
written with a backslash. -/
theorem stringRest?_flatMap_escape (chars cs rest : List Char) :
    stringRest? (.whole chars) (cs.flatMap escape ++ '"' :: rest) =
      some (some (String.ofList (chars.reverse ++ cs)), rest) := by
  induction cs generalizing chars with
  | nil => simp [stringRest?, Pending.finish, Pending.whole]
  | cons c cs ih =>
      rw [List.flatMap_cons, List.append_assoc, stringRest?_escape, ih]
      simp

/-- What follows the opening quote of a written string is read as that string. -/
theorem string?_quoted (s : String) (rest : List Char) :
    string? (s.toList.flatMap escape ++ '"' :: rest) = some (some s, rest) := by
  show stringRest? (.whole []) _ = _
  rw [stringRest?_flatMap_escape]
  simp

theorem quoted_append (s : String) (rest : List Char) :
    quoted s ++ rest = '"' :: (s.toList.flatMap escape ++ '"' :: rest) := by
  simp [quoted]

end ModelSchema.Json
