import Mathlib
import ModelSchema.Naming

/-!
# The words of a name

Derived names are made in one scan, which looks one character back and one ahead. Here the words of
a name are said without it: neighbours belong to one word if both are letters or numbers and no new
word begins with the second, and `List.splitBy` cuts a text between all others (`wordsBy`).

* A scan gives the words in upper case with single underscores between them
  (`joinWords_eq_intercalate`).
* Words in upper case are never empty and have no underscore (`uppercase_ne_nil`,
  `underscore_notMem_uppercase`), so underscores stand between words only (`Spaced`).
-/

namespace ModelSchema

/-! ## Upper case -/

namespace Text

/-- `Char.isAlphanum` is a test for ASCII only, so below it the tables of `Letter` are never asked.
-/
theorem toNat_lt_of_isAlphanum {c : Char} (h : c.isAlphanum = true) : c.toNat < 128 := by
  simp only [Char.isAlphanum, Char.isAlpha, Char.isUpper, Char.isLower, Char.isDigit,
    Bool.or_eq_true, Bool.and_eq_true, decide_eq_true_eq, UInt32.le_iff_toNat_le, ge_iff_le] at h
  change ((65 ≤ c.toNat ∧ c.toNat ≤ 90) ∨ (97 ≤ c.toNat ∧ c.toNat ≤ 122)) ∨
    (48 ≤ c.toNat ∧ c.toNat ≤ 57) at h
  omega

theorem isAlphanumeric_of_isAlphanum {c : Char} (h : c.isAlphanum = true) :
    isAlphanumeric c = true := by
  rw [isAlphanumeric, if_pos (toNat_lt_of_isAlphanum h)]
  exact h

theorem uppercase_of_isAlphanum {c : Char} (h : c.isAlphanum = true) :
    uppercase c = [c.toUpper] := by
  rw [uppercase, if_pos (toNat_lt_of_isAlphanum h)]

/-- In upper case, ASCII letters are upper-case letters, and digits stay digits. -/
theorem isUpper_or_isDigit_toUpper {c : Char} (h : c.isAlphanum = true) :
    c.toUpper.isUpper = true ∨ c.toUpper.isDigit = true := by
  rw [Char.isUpper_toUpper_eq_isAlpha]
  rcases Bool.or_eq_true_iff.mp h with halpha | hdigit
  · exact .inl halpha
  -- A digit is no lower-case letter, so `toUpper` leaves it alone.
  · right
    rw [Char.toUpper_eq_of_not_isLower]
    · exact hdigit
    · intro hlower
      simp only [Char.isDigit, Char.isLower, Bool.and_eq_true, decide_eq_true_eq, ge_iff_le,
        UInt32.le_iff_toNat_le] at hdigit hlower
      grind

/-- `Char.ofNat` maps to the underscore from its own code only; invalid codes go to the null
character. -/
theorem code_of_ofNat_eq {code : Nat} (h : Char.ofNat code = '_') : code = 95 := by
  have htoNat := congrArg Char.toNat h
  rw [Char.toNat_ofNat] at htoNat
  split at htoNat
  · exact htoNat
  · cases htoNat

/-- No table gives an empty upper case, or one with an underscore. Checked entry by entry, as is
`shiftedRuns_avoid`. -/
theorem expansions_spell : ∀ entry ∈ Letter.expansions, entry.2 ≠ [] ∧ 95 ∉ entry.2 := by
  decide +kernel

/-- A run of letters that is moved as a whole lands on one side of the underscore, whose code is 95.
-/
theorem shiftedRuns_avoid : ∀ run ∈ Letter.shiftedRuns,
    (run.last : Int) + run.shift < 95 ∨ 95 < (run.first : Int) + run.shift := by
  decide +kernel

theorem mem_of_lookup {entries : List (Nat × List Nat)} {key : Nat} {value : List Nat}
    (h : entries.lookup key = some value) : (key, value) ∈ entries := by
  obtain ⟨before, after, rfl, -⟩ := List.lookup_eq_some_iff.mp h
  exact List.mem_append_right before List.mem_cons_self

/-- Every letter has an upper case, so no word is lost. -/
theorem uppercase_ne_nil (c : Char) : uppercase c ≠ [] := by
  rw [uppercase]
  split
  · exact List.cons_ne_nil _ _
  · split
    · next codes hcodes =>
      have hne := (expansions_spell _ (mem_of_lookup hcodes)).1
      simpa using hne
    · split <;> exact List.cons_ne_nil _ _

/-- Of letters and numbers only: the underscore is its own upper case. It is this that lets words be
found again in a derived name. -/
theorem underscore_notMem_uppercase {c : Char} (h : isAlphanumeric c = true) :
    '_' ∉ uppercase c := by
  rw [isAlphanumeric] at h
  rw [uppercase]
  split
  · next hascii =>
    rw [if_pos hascii] at h
    intro hmem
    have heq := List.mem_singleton.mp hmem
    rcases isUpper_or_isDigit_toUpper h with hupper | hdigit
    · rw [← heq] at hupper
      cases hupper
    · rw [← heq] at hdigit
      cases hdigit
  · next hbeyond =>
    -- Three cases, as in `uppercase`: ASCII, an expansion, and a letter of a shifted run or of
    -- none.
    split
    · next codes hcodes =>
      intro hmem
      obtain ⟨code, hcode, heq⟩ := List.mem_map.mp hmem
      rw [code_of_ofNat_eq heq] at hcode
      exact (expansions_spell _ (mem_of_lookup hcodes)).2 hcode
    · split
      · next run hrun =>
        intro hmem
        have hcode := code_of_ofNat_eq (List.mem_singleton.mp hmem).symm
        have havoid := shiftedRuns_avoid run (List.mem_of_find?_eq_some hrun)
        have hwithin := List.find?_some hrun
        simp only [Letter.Run.contains, Bool.and_eq_true, decide_eq_true_eq] at hwithin
        omega
      · intro hmem
        rw [← List.mem_singleton.mp hmem] at hbeyond
        exact hbeyond (by decide)

end Text

namespace Naming

open Text

/-! ## Cutting a text into words

Where a text is cut depends on two neighbours and on the character after them, so every character is
paired with its successor before `List.splitBy` compares neighbours. The lemmas of this section turn
`wordsBy` into equations on the first one or two characters; nothing after it looks at `splitBy`
again. -/

def withNext : List Char → List (Char × Option Char)
  | [] => []
  | c :: rest => (c, rest.head?) :: withNext rest

/-- Whether two neighbours belong to one word: both are letters or numbers, and the text is not cut
between them. The relation that `List.splitBy` groups by. -/
def together (cut : Char → Char → Option Char → Bool) (before c : Char × Option Char) : Bool :=
  isAlphanumeric before.1 && isAlphanumeric c.1 && !cut before.1 c.1 c.2

/-- The words of a text. It is cut between all neighbours that do not belong to one word; what is
left of the other characters is dropped. -/
def wordsBy (cut : Char → Char → Option Char → Bool) (text : List Char) : List (List Char) :=
  (((withNext text).splitBy (together cut)).map (·.map Prod.fst)).filter (·.all isAlphanumeric)

/-- Inside a run of letters and numbers a word begins with an upper-case letter after a lower-case
letter or a digit, and with one after an upper-case letter if a lower-case letter follows:
`line2|Code`, `HTTP|Status`. -/
def breaks (before c : Char) (after : Option Char) : Bool :=
  isUppercase c &&
    (isLowercase before || before.isDigit || isUppercase before && after.any isLowercase)

def words (name : String) : List (List Char) :=
  wordsBy breaks name.toList

def capitals (word : List Char) : List Char :=
  word.flatMap uppercase

section Words

variable {cut : Char → Char → Option Char → Bool} {c d : Char} {rest : List Char}

@[simp] theorem wordsBy_nil : wordsBy cut [] = [] := rfl

/-- What `withNext` puts first is the first character and the one after it. -/
theorem head?_withNext (text : List Char) :
    (withNext text).head? = text.head?.map fun c => (c, text.tail.head?) := by
  cases text <;> rfl

/-- A character that does not belong to the next one is cut off. -/
theorem splitBy_withNext (h : ∀ d ∈ rest.head?,
      together cut (c, rest.head?) (d, rest.tail.head?) = false) :
    (withNext (c :: rest)).splitBy (together cut) =
      [(c, rest.head?)] :: (withNext rest).splitBy (together cut) := by
  have happend : withNext (c :: rest) = [(c, rest.head?)] ++ withNext rest := rfl
  rw [happend, List.splitBy_append]
  · rfl
  · intro x hx y hy
    cases hx
    rw [head?_withNext] at hy
    obtain ⟨d, hd, rfl⟩ := Option.map_eq_some_iff.mp hy
    exact h d hd

/-- First of the three equations of `wordsBy`: another character is cut off and dropped. With
`wordsBy_apart` and `wordsBy_joined` they replace its definition from here on. -/
theorem wordsBy_of_not_isAlphanumeric (h : isAlphanumeric c = false) :
    wordsBy cut (c :: rest) = wordsBy cut rest := by
  rw [wordsBy, splitBy_withNext]
  · simp [wordsBy, h]
  · intro d _
    simp [together, h]

/-- A letter that is cut off from what follows is a word by itself. -/
theorem wordsBy_apart (hc : isAlphanumeric c = true)
    (h : ∀ d ∈ rest.head?, isAlphanumeric d = true → cut c d rest.tail.head? = true) :
    wordsBy cut (c :: rest) = [c] :: wordsBy cut rest := by
  rw [wordsBy, splitBy_withNext]
  · simp [wordsBy, hc]
  · intro d hd
    cases halnum : isAlphanumeric d with
    | false => simp [together, halnum]
    | true =>
        have hcut := h d hd halnum
        simp_all [together]

/-- An element that belongs to the next one joins its group. -/
theorem splitBy_cons_cons {α : Type} {r : α → α → Bool} {a b : α} {l : List α}
    (h : r a b = true) : ∃ group groups, (b :: l).splitBy r = (b :: group) :: groups ∧
      (a :: b :: l).splitBy r = (a :: b :: group) :: groups := by
  obtain ⟨hflatten, hnil, hgroups, hcuts⟩ := List.splitBy_eq_iff.mp (Eq.refl ((b :: l).splitBy r))
  -- The groups of the longer list are guessed, and `List.splitBy_eq_iff` checks them.
  rcases hsplit : (b :: l).splitBy r with _ | ⟨first, groups⟩
  · simp at hsplit
  · rw [hsplit] at hflatten hnil hgroups hcuts
    cases first with
    | nil => exact absurd List.mem_cons_self hnil
    | cons own group =>
        rw [List.flatten_cons, List.cons_append, List.cons.injEq] at hflatten
        obtain ⟨rfl, hrest⟩ := hflatten
        refine ⟨group, groups, rfl, List.splitBy_eq_iff.mpr ⟨?_, ?_, ?_, ?_⟩⟩
        · rw [hrest]
          rfl
        · simpa using hnil
        · intro m hm
          rcases List.mem_cons.mp hm with rfl | hm
          · exact List.isChain_cons_cons.mpr ⟨h, hgroups _ List.mem_cons_self⟩
          · exact hgroups m (List.mem_cons_of_mem _ hm)
        · rw [List.isChain_cons] at hcuts ⊢
          refine ⟨fun next hnext => ?_, hcuts.2⟩
          obtain ⟨hlast, hhead, hcut⟩ := hcuts.1 next hnext
          refine ⟨List.cons_ne_nil _ _, hhead, ?_⟩
          rwa [List.getLast_cons hlast]

/-- Those that belong to one another are letters or numbers. -/
theorem all_isAlphanumeric_of_isChain {x : Char × Option Char} {group : List (Char × Option Char)}
    (h : (x :: group).IsChain fun a b => together cut a b = true) :
    (group.map Prod.fst).all isAlphanumeric = true := by
  induction group generalizing x with
  | nil => rfl
  | cons y group ih =>
      obtain ⟨htogether, hrest⟩ := List.isChain_cons_cons.mp h
      have hy : isAlphanumeric y.1 = true := by
        simp only [together, Bool.and_eq_true] at htogether
        exact htogether.1.2
      rw [List.map_cons, List.all_cons, hy, ih hrest]
      rfl

/-- A character joins the word of the next one. -/
theorem wordsBy_joined (hc : isAlphanumeric c = true) (hd : isAlphanumeric d = true)
    (h : cut c d rest.head? = false) :
    ∃ word others, wordsBy cut (d :: rest) = (d :: word) :: others ∧
      wordsBy cut (c :: d :: rest) = (c :: d :: word) :: others := by
  have htogether : together cut (c, some d) (d, rest.head?) = true := by simp [together, hc, hd, h]
  obtain ⟨group, groups, hsplit, hjoined⟩ := splitBy_cons_cons (l := withNext rest) htogether
  -- The group that `d` begins is one of letters, so the filter keeps it, with `c` in front of it
  -- too.
  have hmem : (d, rest.head?) :: group ∈
      ((d, rest.head?) :: withNext rest).splitBy (together cut) := by
    rw [hsplit]
    exact List.mem_cons_self
  have hgroup := all_isAlphanumeric_of_isChain (List.isChain_of_mem_splitBy hmem)
  refine ⟨group.map Prod.fst, (groups.map (·.map Prod.fst)).filter (·.all isAlphanumeric), ?_, ?_⟩
  · rw [wordsBy, withNext, hsplit, List.map_cons, List.filter_cons_of_pos]
    · rfl
    · rw [List.map_cons, List.all_cons, hd, hgroup]
      rfl
  · rw [wordsBy, withNext, withNext, List.head?_cons, hjoined, List.map_cons,
      List.filter_cons_of_pos]
    · rfl
    · rw [List.map_cons, List.map_cons, List.all_cons, List.all_cons, hc, hd, hgroup]
      rfl

/-- The words have all letters and numbers of a text, in order: `wordsBy` loses other characters
only. -/
theorem flatten_wordsBy (text : List Char) :
    (wordsBy cut text).flatten = text.filter isAlphanumeric := by
  induction text with
  | nil => rfl
  | cons c rest ih =>
      cases hc : isAlphanumeric c with
      | false =>
          rw [wordsBy_of_not_isAlphanumeric hc, ih, List.filter_cons_of_neg]
          simp [hc]
      | true =>
          rw [List.filter_cons_of_pos hc, ← ih]
          -- Either `c` is a word by itself, or it joins the word of the next character.
          by_cases hapart : ∀ d ∈ rest.head?, isAlphanumeric d = true →
              cut c d rest.tail.head? = true
          · rw [wordsBy_apart hc hapart]
            rfl
          · cases rest with
            | nil => simp at hapart
            | cons d rest =>
                simp only [List.head?_cons, Option.mem_some_iff, forall_eq', List.tail_cons,
                  Classical.not_imp, Bool.not_eq_true] at hapart
                obtain ⟨word, others, hrest, hjoined⟩ := wordsBy_joined hc hapart.1 hapart.2
                rw [hrest, hjoined]
                rfl

/-- `List.splitBy` makes no empty groups. -/
theorem nil_notMem_wordsBy (text : List Char) : [] ∉ wordsBy cut text := by
  intro h
  obtain ⟨group, hgroup, hnil⟩ := List.mem_map.mp (List.mem_filter.mp h).1
  exact List.ne_nil_of_mem_splitBy hgroup (List.map_eq_nil_iff.mp hnil)

end Words

/-! ## Scans

`joinWords` keeps the character before as its only memory. In the middle of a text that is enough to
know whether a word is open: it is if the character before is a letter or number. -/

section Scan

variable {cut starts : Char → Char → Option Char → Bool}

/-- A scan that starts words where a text is cut, and after other characters. Both `startsWord` and
`startsRun` are of this kind, with `breaks` and with no cuts at all. -/
def StartsBy (cut starts : Char → Char → Option Char → Bool) : Prop :=
  ∀ before c after, starts before c after = (!isAlphanumeric before || cut before c after)

/-- Words that follow another one, each after its underscore. A scan in the middle of a name writes
this form; only `joinWords none` writes `intercalate`. -/
def further (others : List (List Char)) : List Char :=
  others.flatMap fun word => '_' :: capitals word

theorem intercalate_capitals (word : List Char) (others : List (List Char)) :
    ['_'].intercalate ((word :: others).map capitals) = capitals word ++ further others := by
  induction others generalizing word with
  | nil => simp [further]
  | cons next others ih =>
      rw [List.map_cons, List.map_cons, List.intercalate_cons_cons, ← List.map_cons, ih]
      simp [further]

/-- A scan that comes from a letter or number goes on with the word of that; one that comes from
another character begins with a new word. -/
theorem joinWords_some (h : StartsBy cut starts) (text : List Char) :
    (∀ before, isAlphanumeric before = true →
      ∃ word others, wordsBy cut (before :: text) = (before :: word) :: others ∧
        joinWords starts (some before) text = capitals word ++ further others) ∧
    ∀ before, isAlphanumeric before = false →
      joinWords starts (some before) text = further (wordsBy cut text) := by
  -- Both parts at once: a scan passes from one kind of character to the other.
  induction text with
  | nil =>
      refine ⟨fun before hbefore => ⟨[], [], ?_, rfl⟩, fun before hbefore => rfl⟩
      rw [wordsBy_apart hbefore (by simp)]
      rfl
  | cons c rest ih =>
      cases hc : isAlphanumeric c with
      | false =>
          have hscan (before : Char) :
              joinWords starts (some before) (c :: rest) = further (wordsBy cut rest) := by
            rw [joinWords, if_neg (by simp [hc])]
            exact ih.2 c hc
          constructor
          · intro before hbefore
            refine ⟨[], wordsBy cut rest, ?_, hscan before⟩
            rw [wordsBy_apart hbefore (by simp [hc]), wordsBy_of_not_isAlphanumeric hc]
          · intro before _
            rw [hscan, wordsBy_of_not_isAlphanumeric hc]
      | true =>
          obtain ⟨word, others, hwords, hrest⟩ := ih.1 c hc
          have hscan (before : Char) : joinWords starts (some before) (c :: rest) =
              (if starts before c rest.head? then ['_'] else [])
                ++ (capitals (c :: word) ++ further others) := by
            rw [joinWords, if_pos hc, hrest]
            simp [capitals]
          constructor
          · intro before hbefore
            cases hcut : cut before c rest.head? with
            | true =>
                refine ⟨[], (c :: word) :: others, ?_, ?_⟩
                · rw [wordsBy_apart hbefore (by simpa using fun _ => hcut), hwords]
                · rw [hscan, h, hcut]
                  simp [capitals, further]
            | false =>
                obtain ⟨word', others', hwords', hjoined⟩ := wordsBy_joined hbefore hc hcut
                rw [hwords] at hwords'
                cases hwords'
                refine ⟨c :: word, others, hjoined, ?_⟩
                rw [hscan, h, hcut, hbefore]
                rfl
          · intro before hbefore
            rw [hscan, h, hbefore, hwords]
            simp [further]

/-- The specification of `joinWords`: a scan gives the words in upper case, with underscores between
them. -/
theorem joinWords_eq_intercalate (h : StartsBy cut starts) (text : List Char) :
    joinWords starts none text = ['_'].intercalate ((wordsBy cut text).map capitals) := by
  induction text with
  | nil => rfl
  | cons c rest ih =>
      cases hc : isAlphanumeric c with
      | false =>
          rw [joinWords, if_neg (by simp [hc]), wordsBy_of_not_isAlphanumeric hc, ← ih]
          rfl
      | true =>
          obtain ⟨word, others, hwords, hrest⟩ := (joinWords_some h rest).1 c hc
          rw [joinWords, if_pos hc, hrest, hwords, intercalate_capitals]
          simp [capitals]

end Scan

/-! ## Underscores

An underscore in a derived name can only have been put there by the scan, because upper case makes
none. -/

/-- Without the underscores, only the parts are left. So a text that is joined by underscores is
empty only if all parts are. -/
theorem filter_intercalate {parts : List (List Char)} (h : ∀ part ∈ parts, '_' ∉ part) :
    (['_'].intercalate parts).filter (· ≠ '_') = parts.flatten := by
  induction parts with
  | nil => rfl
  | cons part rest ih =>
      obtain ⟨hpart, hrest⟩ := List.forall_mem_cons.mp h
      have hself : part.filter (· ≠ '_') = part := by
        rw [List.filter_eq_self]
        intro c hc
        simpa using fun heq : c = '_' => hpart (heq ▸ hc)
      cases rest with
      | nil => simpa using hself
      | cons next rest =>
          rw [List.intercalate_cons_cons, List.append_assoc, List.filter_append, hself,
            List.flatten_cons, ← ih hrest]
          rfl

/-- Underscores stand between other characters only, one at a time. -/
structure Spaced (text : List Char) : Prop where
  first : text.head? ≠ some '_'
  last : text.getLast? ≠ some '_'
  single : text.IsChain fun a b => a ≠ '_' ∨ b ≠ '_'

theorem spaced_of_notMem {text : List Char} (h : '_' ∉ text) : Spaced text where
  first hfirst := h (List.mem_of_head? hfirst)
  last hlast := h (List.mem_of_getLast? hlast)
  single := by
    rw [List.isChain_iff_getElem]
    intro i hi
    left
    intro heq
    exact h (heq ▸ List.getElem_mem _)

/-- The seam of two such texts is an underscore between two other characters. -/
theorem Spaced.append {first second : List Char} (hfirst : Spaced first) (hsecond : Spaced second)
    (hne : first ≠ []) (hne' : second ≠ []) : Spaced (first ++ '_' :: second) where
  first := by
    rw [List.head?_append_of_ne_nil _ hne]
    exact hfirst.first
  last := by
    rw [List.getLast?_append_of_ne_nil _ (List.cons_ne_nil _ _), List.getLast?_cons_of_ne_nil hne']
    exact hsecond.last
  single := by
    refine List.IsChain.append hfirst.single (List.isChain_cons.mpr ⟨?_, hsecond.single⟩) ?_
    · intro c hc
      right
      rintro rfl
      exact hsecond.first hc
    · intro c hc _ _
      left
      rintro rfl
      exact hfirst.last hc

theorem spaced_intercalate {parts : List (List Char)}
    (h : ∀ part ∈ parts, part ≠ [] ∧ '_' ∉ part) : Spaced (['_'].intercalate parts) := by
  induction parts with
  | nil => exact spaced_of_notMem List.not_mem_nil
  | cons part rest ih =>
      obtain ⟨hpart, hrest⟩ := List.forall_mem_cons.mp h
      cases rest with
      | nil =>
          rw [List.intercalate_singleton]
          exact spaced_of_notMem hpart.2
      | cons next rest =>
          rw [List.intercalate_cons_cons, List.append_assoc, List.singleton_append]
          refine (spaced_of_notMem hpart.2).append (ih hrest) hpart.1 ?_
          -- Without underscores the rest would still have its first word.
          intro hnil
          have hflatten := filter_intercalate fun part hmem => (hrest part hmem).2
          rw [hnil, List.flatten_cons] at hflatten
          exact (hrest next List.mem_cons_self).1 (List.append_eq_nil_iff.mp hflatten.symm).1

/-- Words in upper case are not empty, and have no underscore. -/
theorem capitals_spell {cut : Char → Char → Option Char → Bool} {text part : List Char}
    (h : part ∈ (wordsBy cut text).map capitals) : part ≠ [] ∧ '_' ∉ part := by
  obtain ⟨word, hword, rfl⟩ := List.mem_map.mp h
  have hall := (List.mem_filter.mp hword).2
  constructor
  · intro hnil
    have hne : word ≠ [] := fun heq => nil_notMem_wordsBy text (heq ▸ hword)
    obtain ⟨c, rest, rfl⟩ := List.exists_cons_of_ne_nil hne
    exact uppercase_ne_nil c (List.append_eq_nil_iff.mp hnil).1
  · intro hmem
    obtain ⟨c, hc, hupper⟩ := List.mem_flatMap.mp hmem
    exact underscore_notMem_uppercase (List.all_eq_true.mp hall c hc) hupper

section Derived

variable {cut starts : Char → Char → Option Char → Bool}

/-- A derived name begins and ends with a letter or number, and has no two underscores in a row. -/
theorem spaced_joinWords (h : StartsBy cut starts) (text : List Char) :
    Spaced (joinWords starts none text) := by
  rw [joinWords_eq_intercalate h]
  exact spaced_intercalate fun part => capitals_spell

/-- But for underscores, a derived name has all letters and numbers in upper case. Together with
`spaced_joinWords` this says that a scan adds underscores and nothing else. -/
theorem filter_joinWords (h : StartsBy cut starts) (text : List Char) :
    (joinWords starts none text).filter (· ≠ '_') =
      (text.filter isAlphanumeric).flatMap uppercase := by
  rw [joinWords_eq_intercalate h, filter_intercalate fun part hpart => (capitals_spell hpart).2,
    ← @flatten_wordsBy cut, List.flatMap_def, List.map_flatten, List.flatten_flatten,
    List.map_map]
  rfl

end Derived

/-- `startsWord` was written as `startsRun` or a break, so there is nothing to prove. -/
theorem startsBy_breaks : StartsBy breaks startsWord :=
  fun _ _ _ => rfl

theorem toList_upperSnake (name : String) :
    (upperSnake name).toList = joinWords startsWord none name.toList :=
  String.toList_ofList

example : words "HTTPStatus - line2Code" =
    ["HTTP".toList, "Status".toList, "line2".toList, "Code".toList] := by decide

end Naming

end ModelSchema
