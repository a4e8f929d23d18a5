import Mathlib
import ModelSchema.Sql.Dialect

/-!
# Lines of SQL texts

Texts are cut into lines at every line break, and a line that is exactly the separator ends a batch.
A text is `Clear` if it has no such line. When texts are put together, the last line of one and the
first line of the next become one line, so being clear says little about a text inside another one.
What it takes there is to be `Calm`: whatever stands before it on its first line, no later line is
the separator. Words of SQL around such texts keep the seams from becoming separators, since all
their lines have characters that no separator has (`isMarked`), and a text that begins with one of
them is `Led` by it. `Led.next` puts a calm text after marked words.
-/

namespace ModelSchema

namespace Text

/-! ## Lines -/

def lines (s : String) : List (List Char) :=
  s.toList.splitOn '\n'

theorem lines_ne_nil (s : String) : lines s ≠ [] :=
  List.splitOn_ne_nil _ _

/-- What has no line break joins the first line. -/
theorem splitOn_append_of_not_mem {xs : List Char} (h : '\n' ∉ xs) (ys : List Char) :
    (xs ++ ys).splitOn '\n' = (ys.splitOn '\n').modifyHead (xs ++ ·) := by
  induction xs with
  | nil => cases hys : ys.splitOn '\n' <;> simp [hys]
  | cons x xs ih =>
      have hx : (x == '\n') = false := by
        simpa using fun heq : x = '\n' => h (heq ▸ List.mem_cons_self)
      have hxs := ih fun hmem => h (List.mem_cons_of_mem _ hmem)
      rw [List.cons_append, List.splitOn_cons_eq_if_modifyHead, hx, if_neg (by simp), hxs]
      cases ys.splitOn '\n' <;> rfl

theorem lines_of_not_mem {s : String} (h : '\n' ∉ s.toList) : lines s = [s.toList] :=
  List.splitOn_eq_singleton h

/-- A line break between two texts keeps their lines apart. -/
theorem lines_append_break (a b : String) : lines (a ++ "\n" ++ b) = lines a ++ lines b := by
  simp only [lines, String.toList_append, List.append_assoc]
  exact List.splitOn_append_cons_self a.toList b.toList

/-- Of two texts put together, the last line of the one and the first line of the other become one
line. -/
theorem exists_lines_append (a b : String) :
    ∃ before last first after, lines a = before ++ [last] ∧ lines b = first :: after ∧
      lines (a ++ b) = before ++ (last ++ first) :: after := by
  obtain ⟨first, after, hb⟩ := List.exists_cons_of_ne_nil (lines_ne_nil b)
  -- The lines of `b` stay as they are while characters are put before it one by one.
  suffices h : ∀ xs : List Char, ∃ before last, xs.splitOn '\n' = before ++ [last] ∧
      (xs ++ b.toList).splitOn '\n' = before ++ (last ++ first) :: after by
    obtain ⟨before, last, ha, happend⟩ := h a.toList
    exact ⟨before, last, first, after, ha, hb, by rwa [lines, String.toList_append]⟩
  intro xs
  induction xs with
  | nil => exact ⟨[], [], rfl, hb⟩
  | cons x xs ih =>
      obtain ⟨before, last, hxs, happend⟩ := ih
      simp only [List.cons_append, List.splitOn_cons_eq_if_modifyHead]
      rw [hxs, happend]
      by_cases hx : (x == '\n') = true
      · exact ⟨[] :: before, last, by rw [if_pos hx]; rfl, by rw [if_pos hx]; rfl⟩
      · rw [if_neg hx, if_neg hx]
        cases before with
        | nil => exact ⟨[], x :: last, rfl, rfl⟩
        | cons line before => exact ⟨(x :: line) :: before, last, rfl, rfl⟩

/-- Where characters are replaced but line breaks stay, and no others come, each line is replaced by
itself. -/
theorem lines_flatMap {f : Char → List Char} (hbreak : f '\n' = ['\n'])
    (hother : ∀ c, c ≠ '\n' → '\n' ∉ f c) (s : String) :
    lines (String.ofList (s.toList.flatMap f)) = (lines s).map (·.flatMap f) := by
  simp only [lines, String.toList_ofList]
  induction s.toList with
  | nil => rfl
  | cons x xs ih =>
      rw [List.flatMap_cons]
      by_cases hx : x = '\n'
      · subst hx
        rw [hbreak]
        simp only [List.singleton_append, List.splitOn_cons_eq_if_modifyHead, beq_self_eq_true,
          if_true, List.map_cons, List.flatMap_nil, ih]
      · have hcons : (x :: xs).splitOn '\n' = (xs.splitOn '\n').modifyHead (x :: ·) :=
          splitOn_append_of_not_mem (show '\n' ∉ [x] by simpa using Ne.symm hx) xs
        rw [splitOn_append_of_not_mem (hother x hx), ih, hcons]
        cases xs.splitOn '\n' <;> rfl

end Text

namespace Sql

/-! ## Separators

The three degrees of `Clear`, `Calm` and `Led`, and how they behave when texts are put together. -/

/-- Whether no separator has the character. -/
def isForeign (c : Char) : Bool :=
  c != 'g' && c != 'o' && c != '/'

/-- Whether every line of the text has a character that no separator has. -/
def isMarked (s : String) : Bool :=
  (Text.lines s).all (·.any isForeign)

/-- `isForeign` looks at the letters of both separators, so a marked line is none of either engine.
-/
theorem ne_separator {line : List Char} (h : line.any isForeign = true) (engine : Engine) :
    engine.separator.toList ≠ line := by
  rintro rfl
  cases engine <;> exact absurd h (by decide)

section

variable (engine : Engine)

def Clear (s : String) : Prop :=
  engine.separator.toList ∉ Text.lines s

/-- No line of the text is the separator, the first one apart. Of that one nothing is asked, because
something may stand before it. -/
def Calm (s : String) : Prop :=
  engine.separator.toList ∉ (Text.lines s).tail

/-- No line of the text is the separator, and the first one cannot become it. -/
def Led (s : String) : Prop :=
  ∃ first rest, Text.lines s = first :: rest ∧ first.any isForeign = true ∧
    engine.separator.toList ∉ rest

instance : DecidablePred (Clear engine) :=
  fun s => inferInstanceAs (Decidable (_ ∉ Text.lines s))

instance : DecidablePred (Calm engine) :=
  fun s => inferInstanceAs (Decidable (_ ∉ (Text.lines s).tail))

end

variable {engine : Engine} {a b s t u : String}

theorem Clear.calm (h : Clear engine s) : Calm engine s :=
  fun hmem => h (List.mem_of_mem_tail hmem)

theorem Led.clear (h : Led engine s) : Clear engine s := by
  obtain ⟨first, rest, hlines, hfirst, hrest⟩ := h
  rw [Clear, hlines, List.mem_cons, not_or]
  exact ⟨ne_separator hfirst engine, hrest⟩

theorem Led.calm (h : Led engine s) : Calm engine s :=
  h.clear.calm

/-- A text of one line is calm, whatever it is. Identifiers are such texts in most cases. -/
theorem calm_of_not_mem (h : '\n' ∉ s.toList) : Calm engine s := by
  rw [Calm, Text.lines_of_not_mem h]
  exact List.not_mem_nil

/-- Clear texts on lines of their own. -/
theorem clear_break (ha : Clear engine a) (hb : Clear engine b) :
    Clear engine (a ++ "\n" ++ b) := by
  rw [Clear, Text.lines_append_break, List.mem_append, not_or]
  exact ⟨ha, hb⟩

/-- A calm text before one that is led: the seam is marked by the beginning of the second. -/
theorem calm_append (ha : Calm engine a) (hb : Led engine b) : Calm engine (a ++ b) := by
  obtain ⟨first, after, hlines, hfirst, hafter⟩ := hb
  obtain ⟨before, last, _, _, hlast, hsame, happend⟩ := Text.exists_lines_append a b
  cases hlines.symm.trans hsame
  have hseam : engine.separator.toList ≠ last ++ first :=
    ne_separator (by rw [List.any_append, hfirst, Bool.or_true]) engine
  rw [Calm, hlast] at ha
  rw [Calm, happend]
  -- If `a` has only one line, then the seam is the first line, of which nothing is asked.
  cases before with
  | nil => exact hafter
  | cons line before =>
      rw [List.cons_append, List.tail_cons, List.mem_append, not_or] at ha ⊢
      exact ⟨ha.1, List.not_mem_cons_of_ne_of_not_mem hseam hafter⟩

/-- Marked words before a calm text: the seam is marked by the end of the first. -/
theorem led_append_calm (ha : isMarked a = true) (hb : Calm engine b) : Led engine (a ++ b) := by
  obtain ⟨before, last, first, after, hlast, hlines, happend⟩ := Text.exists_lines_append a b
  rw [Calm, hlines] at hb
  rw [isMarked, hlast, List.all_append, List.all_cons, Bool.and_eq_true, Bool.and_eq_true] at ha
  obtain ⟨hbefore, hmarked, -⟩ := ha
  have hseam : (last ++ first).any isForeign = true := by
    rw [List.any_append, hmarked, Bool.true_or]
  cases before with
  | nil => exact ⟨_, _, happend, hseam, hb⟩
  | cons line before =>
      rw [List.all_cons, Bool.and_eq_true] at hbefore
      refine ⟨_, _, happend, hbefore.1, fun hmem => ?_⟩
      rcases List.mem_append.mp hmem with hmem | hmem
      · exact ne_separator (List.all_eq_true.mp hbefore.2 _ hmem) engine rfl
      · exact List.not_mem_cons_of_ne_of_not_mem (ne_separator hseam engine) hb hmem

theorem led_of_marked (h : isMarked s = true) : Led engine s := by
  have hempty : Calm engine "" := calm_of_not_mem (by simp)
  simpa only [String.append_empty] using led_append_calm h hempty

theorem Led.append (ha : Led engine a) (hb : Led engine b) : Led engine (a ++ b) := by
  have hcalm := calm_append ha.calm hb
  obtain ⟨start, rest, hlines, hstart, -⟩ := ha
  obtain ⟨before, last, first, after, hlast, -, happend⟩ := Text.exists_lines_append a b
  rw [Calm, happend] at hcalm
  cases before with
  | nil =>
      cases hlines.symm.trans hlast
      exact ⟨_, _, happend, by rw [List.any_append, hstart, Bool.true_or], hcalm⟩
  | cons line before =>
      cases hlines.symm.trans hlast
      exact ⟨_, _, happend, hstart, hcalm⟩

/-- A calm text after marked words. -/
theorem Led.next (ha : Led engine a) (hs : isMarked s = true) (ht : Calm engine t) :
    Led engine (a ++ s ++ t) := by
  rw [String.append_assoc]
  exact ha.append (led_append_calm hs ht)

theorem Led.finish (ha : Led engine a) (hs : isMarked s = true) : Led engine (a ++ s) :=
  ha.append (led_of_marked hs)

/-- Marked words after a calm text. -/
theorem Calm.finish (ha : Calm engine a) (hs : isMarked s = true) : Calm engine (a ++ s) :=
  calm_append ha (led_of_marked hs)

theorem Calm.next (ha : Calm engine a) (hs : isMarked s = true) (ht : Calm engine t) :
    Calm engine (a ++ s ++ t) := by
  rw [String.append_assoc]
  exact calm_append ha (led_append_calm hs ht)

/-! ## Lists of texts -/

/-- Calm texts with marked words between them. -/
theorem calm_join (hs : isMarked s = true) {ts : List String} (h : ∀ t ∈ ts, Calm engine t) :
    Calm engine (Text.join s ts) := by
  induction ts with
  | nil => exact calm_of_not_mem (by simp [Text.join])
  | cons t ts ih =>
      have ht := h t List.mem_cons_self
      cases ts with
      | nil => exact ht
      | cons t' ts => exact ht.next hs (ih fun u hu => h u (List.mem_cons_of_mem _ hu))

/-- Texts on lines of their own, with commas behind them. Here `calm_join` does not apply, as the
separating text ends with an empty line. -/
theorem clear_join {ts : List String} (h : ∀ t ∈ ts, Led engine t) :
    Clear engine (Text.join ",\n" ts) := by
  induction ts with
  | nil => cases engine <;> decide
  | cons t ts ih =>
      have ht := h t List.mem_cons_self
      cases ts with
      | nil => exact ht.clear
      | cons t' ts =>
          show Clear engine (t ++ ",\n" ++ Text.join ",\n" (t' :: ts))
          rw [show ",\n" = "," ++ "\n" from rfl, ← String.append_assoc]
          exact clear_break (ht.finish rfl).clear (ih fun u hu => h u (List.mem_cons_of_mem _ hu))

/-! ## Replaced characters -/

/-- Replacing characters inside lines makes no new lines, so it is enough that no other line becomes
the separator. Quoting texts does that. -/
theorem calm_flatMap {f : Char → List Char} (hbreak : f '\n' = ['\n'])
    (hother : ∀ c, c ≠ '\n' → '\n' ∉ f c)
    (hseparator : ∀ line : List Char, line.flatMap f = engine.separator.toList →
      line = engine.separator.toList)
    (h : Calm engine s) : Calm engine (String.ofList (s.toList.flatMap f)) := by
  rw [Calm, Text.lines_flatMap hbreak hother, ← List.map_tail]
  intro hmem
  obtain ⟨line, hline, heq⟩ := List.mem_map.mp hmem
  exact h (hseparator line heq ▸ hline)

end Sql

end ModelSchema
