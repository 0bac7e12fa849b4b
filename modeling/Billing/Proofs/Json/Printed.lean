import Billing.Json.Parser
import Billing.Json.Printer
import Billing.Proofs.Text.Digits

set_option autoImplicit false

/-! # JSON that has been written is read back

Both forms in which a value is written, on indented lines and compressed, are read back as the value
(`Json.parse?_chars`), if it keeps within the limits of the reader (`Json.fits`). A value takes no
more steps to read than it has characters. So `Json.ReadsBack` says, for a number of steps, that
whatever is written in no more characters is read back: a value, the elements of an array, a member,
the members of an object. If it holds for some steps, it holds for one more
(`Json.ReadsBack.succ`).
-/

namespace Billing

namespace Text

theorem hexChars_four (n : Nat) :
    hexChars 4 n = [hexDigit (n / 16 / 16 / 16 % 16), hexDigit (n / 16 / 16 % 16),
      hexDigit (n / 16 % 16), hexDigit (n % 16)] := rfl

end Text

namespace Json

variable {limits : Limits} {fuel level : Nat} {rest : List Char}

/-! ## Strings -/

/-- The four digits of a unit are read as the unit. -/
theorem hexUnit?_hexDigit {n : Nat} (h : n < 65536) :
    hexUnit? (Text.hexDigit (n / 16 / 16 / 16 % 16)) (Text.hexDigit (n / 16 / 16 % 16))
      (Text.hexDigit (n / 16 % 16)) (Text.hexDigit (n % 16)) = some n := by
  have hdigit (m : Nat) : Text.hexDigit? (Text.hexDigit (m % 16)) = some (m % 16) :=
    Text.hexDigit?_hexDigit (Nat.mod_lt m (by decide))
  have hsum : ((n / 16 / 16 / 16 % 16 * 16 + n / 16 / 16 % 16) * 16 + n / 16 % 16) * 16 + n % 16 =
      n := by omega
  simp only [hexUnit?, hdigit, Option.bind_eq_bind, Option.bind_some, hsum, Option.pure_def]

/-- A character is read back from its escape, or from itself if it needs none. -/
theorem stringBody?_escapeChar (c : Char) (cs : List Char) :
    stringBody? (escapeChar c ++ cs) = consChar c (stringBody? cs) := by
  unfold escapeChar
  split_ifs with hquote hslash hb hf hn hr ht hcontrol
  · subst hquote; rfl
  · subst hslash; rfl
  · subst hb; rfl
  · subst hf; rfl
  · subst hn; rfl
  · subst hr; rfl
  · subst ht; rfl
  · -- a control character is a unit of its own, not a half
    have hunit : c.toNat < 0xD800 ∨ 0xE000 ≤ c.toNat := .inl (by omega)
    rw [Text.hexChars_four]
    simp only [List.cons_append, List.nil_append]
    rw [stringBody?, hexUnit?_hexDigit (by omega)]
    simp [hunit]
  · -- the character stands for itself
    have hself : ¬ (c.toNat < 0x20 ∨ c = '\\') := not_or.2 ⟨hcontrol, hslash⟩
    rw [List.singleton_append, stringBody?.eq_def (c :: cs)]
    split
    next h => cases h
    next h => exact absurd (List.cons.inj h).1 hquote
    next h => exact absurd (List.cons.inj h).1 hslash
    next h => exact absurd (List.cons.inj h).1 hslash
    next h =>
      obtain ⟨rfl, rfl⟩ := List.cons.inj h
      rw [if_neg hself]

/-- The inside of a string is read back up to the closing mark. -/
theorem stringBody?_flatMap (cs rest : List Char) :
    stringBody? (cs.flatMap escapeChar ++ '\x22' :: rest) = some (cs, rest) := by
  induction cs with
  | nil => rfl
  | cons c cs ih =>
      rw [List.flatMap_cons, List.append_assoc, stringBody?_escapeChar, ih]
      rfl

/-! ## Numbers -/

/-- What can follow a number: nothing that would be read as a part of it. -/
def EndsNumber (cs : List Char) : Prop :=
  ∀ c rest, cs = c :: rest → Text.asciiDigit? c = none ∧ c ≠ '.' ∧ c ≠ 'e' ∧ c ≠ 'E'

theorem digits_map_append {ds : List Nat} (hds : ∀ d ∈ ds, d < 10) (hrest : EndsNumber rest) :
    digits (ds.map Text.digitChar ++ rest) = (ds, rest) := by
  induction ds with
  | nil =>
      cases rest with
      | nil => rfl
      | cons c rest =>
          have hc : Text.isAsciiDigit c = false := by
            rw [Text.isAsciiDigit, (hrest c rest rfl).1, Option.isSome_none]
          simp [digits, hc]
  | cons d ds ih =>
      have hd := Text.asciiDigit?_digitChar (hds d List.mem_cons_self)
      have hdigit := Text.isAsciiDigit_digitChar (hds d List.mem_cons_self)
      obtain ⟨hdigits, hbehind⟩ := Prod.mk.inj (ih fun e he => hds e (List.mem_cons_of_mem _ he))
      rw [digits, List.map_cons, List.cons_append, List.takeWhile_cons_of_pos hdigit,
        List.dropWhile_cons_of_pos hdigit, List.filterMap_cons_some hd, hdigits, hbehind]

/-- A whole number is read back behind its sign. -/
theorem unsigned?_chars (negative : Bool) (n : Nat) (hrest : EndsNumber rest)
    (hlength : isWithin limits.digits (Digits.count n + if negative then 1 else 0) = true) :
    unsigned? limits negative (Digits.chars n ++ rest) =
      some (ofWhole limits (if negative then -(n : Int) else n), rest) := by
  have hdigits : digits (Digits.chars n ++ rest) = (Digits.ofNat n, rest) :=
    digits_map_append (fun d hd => Digits.lt_ten_of_mem_ofNat hd) hrest
  have hfraction : fraction? rest = some (false, [], rest) := by
    unfold fraction?
    split
    next => exact absurd rfl (hrest _ _ rfl).2.1
    next => rfl
  have hexponent : exponent? rest = some (false, 0, rest) := by
    cases rest with
    | nil => rfl
    | cons c rest =>
        obtain ⟨-, -, hlower, hupper⟩ := hrest c rest rfl
        rw [exponent?, if_neg (not_or.2 ⟨hlower, hupper⟩)]
  have hsize : (Digits.ofNat n).length + (if negative then 1 else 0) =
      Digits.count n + if negative then 1 else 0 := by
    rw [Digits.length_ofNat]
  rw [unsigned?, hdigits]
  split
  next h => exact absurd (Prod.mk.inj h).1 (Digits.ofNat_ne_nil n)
  next h => exact absurd (Prod.mk.inj h).1 (Digits.ofNat_ne_zero_cons n _ _)
  next =>
    simp only [Option.bind_eq_bind, Option.bind_some, hsize, hlength, Bool.not_true, hfraction,
      hexponent, Bool.or_self, List.append_nil, Digits.toNat_ofNat, Option.pure_def]
    rfl

theorem value?_digit {d : Nat} (hd : d < 10) (cs : List Char) :
    value? limits (fuel + 1) level (Text.digitChar d :: cs) =
      unsigned? limits false (Text.digitChar d :: cs) := by
  interval_cases d <;> (rw [value?]; rfl)

theorem value?_minus {d : Nat} (hd : d < 10) (cs : List Char) :
    value? limits (fuel + 1) level ('-' :: Text.digitChar d :: cs) =
      unsigned? limits true (Text.digitChar d :: cs) := by
  interval_cases d <;> (rw [value?]; rfl)

/-- A whole number is read back. -/
theorem value?_intText {n : Int} (hrest : EndsNumber rest)
    (hlength : isWithin limits.digits (Digits.intText n).toList.length = true) :
    value? limits (fuel + 1) level ((Digits.intText n).toList ++ rest) =
      some (ofWhole limits n, rest) := by
  obtain ⟨d, hd, cs, hchars⟩ := Digits.exists_chars_eq_cons n.natAbs
  have hcount : (Digits.chars n.natAbs).length = Digits.count n.natAbs := by
    rw [Digits.chars, List.length_map, Digits.length_ofNat]
  rw [Digits.toList_intText] at hlength ⊢
  by_cases hneg : n < 0
  · have hsize : -(n.natAbs : Int) = n := by omega
    rw [if_pos hneg, List.length_append, List.length_singleton, hcount, Nat.add_comm] at hlength
    have hread := unsigned?_chars true n.natAbs hrest hlength
    rw [hchars, List.cons_append, if_pos rfl, hsize] at hread
    rw [if_pos hneg, hchars]
    exact (value?_minus hd _).trans hread
  · have hsize : (n.natAbs : Int) = n := by omega
    rw [if_neg hneg, List.nil_append, hcount] at hlength
    have hread := unsigned?_chars false n.natAbs hrest hlength
    rw [hchars, List.cons_append, if_neg (by decide), hsize] at hread
    rw [if_neg hneg, hchars]
    exact (value?_digit hd _).trans hread

/-! ## Values within limits -/

/-- Whether a whole number keeps within limits, as one that is told apart or not. -/
def wholeFits (limits : Limits) (isLong : Bool) (n : Int) : Bool :=
  (limits.words && !isWord n) = isLong && isWithin limits.digits (Digits.intText n).toList.length

mutual

/-- Whether a value inside of a number of arrays and objects keeps within limits. Numbers that are
not whole are left out. -/
def fits (limits : Limits) : Nat → Json → Bool
  | _, null => true
  | _, bool _ => true
  | _, int n => wholeFits limits false n
  | _, long n => wholeFits limits true n
  | _, real _ => false
  | _, str _ => true
  | _, arr [] => true
  | level, arr (x :: xs) =>
      isWithin limits.depth (level + 1) && fits limits (level + 1) x &&
        elementsFit limits (level + 1) xs
  | _, obj [] => true
  | level, obj ((_, v) :: ms) =>
      isWithin limits.depth (level + 1) && fits limits (level + 1) v &&
        membersFit limits (level + 1) ms

/-- Whether all elements of an array keep within limits. -/
def elementsFit (limits : Limits) : Nat → List Json → Bool
  | _, [] => true
  | level, x :: xs => fits limits level x && elementsFit limits level xs

/-- Whether all members of an object keep within limits. -/
def membersFit (limits : Limits) : Nat → List (String × Json) → Bool
  | _, [] => true
  | level, (_, v) :: ms => fits limits level v && membersFit limits level ms

end

/-! ## Blanks -/

theorem skipSpace_append {blanks : List Char} (h : blanks.all isSpace = true) (cs : List Char) :
    skipSpace (blanks ++ cs) = skipSpace cs :=
  List.dropWhile_append_of_pos (by simpa using h)

theorem skipSpace_cons {c : Char} (h : isSpace c = false) (cs : List Char) :
    skipSpace (c :: cs) = c :: cs :=
  List.dropWhile_cons_of_neg (by simp [h])

theorem all_isSpace_lineStart (indent : Option Nat) : (lineStart indent).all isSpace = true := by
  cases indent with
  | none => rfl
  | some level => simp [lineStart, isSpace]

theorem all_isSpace_afterColon (indent : Option Nat) : (afterColon indent).all isSpace = true := by
  cases indent <;> rfl

/-- A value begins with neither a blank nor the end of an array. -/
theorem exists_chars (indent : Option Nat) (v : Json) (h : fits limits level v = true) :
    ∃ c cs, v.chars indent = c :: cs ∧ isSpace c = false ∧ c ≠ ']' := by
  have hwhole (n : Int) :
      ∃ c cs, (Digits.intText n).toList = c :: cs ∧ isSpace c = false ∧ c ≠ ']' := by
    obtain ⟨d, hd, cs, hchars⟩ := Digits.exists_chars_eq_cons n.natAbs
    rw [Digits.toList_intText, hchars]
    by_cases hneg : n < 0
    · rw [if_pos hneg]
      exact ⟨'-', _, rfl, by decide⟩
    · rw [if_neg hneg]
      refine ⟨Text.digitChar d, _, rfl, ?_⟩
      interval_cases d <;> decide
  cases v with
  | null => exact ⟨_, _, rfl, by decide⟩
  | bool b => cases b <;> exact ⟨_, _, rfl, by decide⟩
  | int n => rw [chars]; exact hwhole n
  | long n => rw [chars]; exact hwhole n
  | real x => rw [fits] at h; cases h
  | str s => exact ⟨_, _, rfl, by decide⟩
  | arr xs => cases xs <;> exact ⟨_, _, rfl, by decide⟩
  | obj ms => cases ms <;> exact ⟨_, _, rfl, by decide⟩

theorem value?_append {blanks : List Char} (h : blanks.all isSpace = true) (cs : List Char) :
    value? limits fuel level (blanks ++ cs) = value? limits fuel level cs := by
  cases fuel with
  | zero => rw [value?, value?]
  | succ fuel => rw [value?, value?, skipSpace_append h]

theorem member?_append {blanks : List Char} (h : blanks.all isSpace = true) (cs : List Char) :
    member? limits fuel level (blanks ++ cs) = member? limits fuel level cs := by
  cases fuel with
  | zero => rw [member?, member?]
  | succ fuel => rw [member?, member?, skipSpace_append h]

/-! ## Arrays and objects -/

theorem endsNumber_closing (outer : Option Nat) {c : Char} (hc : c = ',' ∨ c = ']' ∨ c = '\x7d')
    (cs : List Char) : EndsNumber (lineStart outer ++ c :: cs) := by
  intro d ds hd
  cases outer with
  | none =>
      obtain ⟨rfl, -⟩ := List.cons.inj hd
      rcases hc with rfl | rfl | rfl <;> decide
  | some level =>
      obtain ⟨rfl, -⟩ := List.cons.inj hd
      decide

theorem endsNumber_elements (xs : List Json) (indent outer : Option Nat) (rest : List Char) :
    EndsNumber (elementsChars indent xs ++ (lineStart outer ++ ']' :: rest)) := by
  cases xs with
  | nil => exact endsNumber_closing outer (by decide) rest
  | cons x xs => exact endsNumber_closing none (.inl rfl) _

theorem endsNumber_members (ms : List (String × Json)) (indent outer : Option Nat)
    (rest : List Char) :
    EndsNumber (membersChars indent ms ++ (lineStart outer ++ '\x7d' :: rest)) := by
  cases ms with
  | nil => exact endsNumber_closing outer (by decide) rest
  | cons m ms => exact endsNumber_closing none (.inl rfl) _

/-- A member of an object. -/
def memberChars (indent : Option Nat) (k : String) (v : Json) : List Char :=
  stringChars k ++ ':' :: afterColon indent ++ chars indent v

/-- What the readers make, within a number of steps, of all that has been written in no more
characters. What is written may be followed by any text that could not be a part of it. -/
structure ReadsBack (limits : Limits) (fuel : Nat) : Prop where
  value : ∀ (v : Json) (indent : Option Nat) (level : Nat) (rest : List Char),
    fits limits level v = true → (v.chars indent).length ≤ fuel → EndsNumber rest →
      value? limits fuel level (v.chars indent ++ rest) = some (v, rest)
  elements : ∀ (xs : List Json) (indent outer : Option Nat) (level : Nat) (rest : List Char),
    elementsFit limits level xs = true → (elementsChars indent xs).length < fuel →
      elements? limits fuel level (elementsChars indent xs ++ lineStart outer ++ ']' :: rest) =
        some (xs, rest)
  member : ∀ (k : String) (v : Json) (indent : Option Nat) (level : Nat) (rest : List Char),
    fits limits level v = true → (memberChars indent k v).length ≤ fuel → EndsNumber rest →
      member? limits fuel level (memberChars indent k v ++ rest) = some ((k, v), rest)
  members : ∀ (ms : List (String × Json)) (indent outer : Option Nat) (level : Nat)
    (rest : List Char), membersFit limits level ms = true →
      (membersChars indent ms).length < fuel →
      members? limits fuel level (membersChars indent ms ++ lineStart outer ++ '\x7d' :: rest) =
        some (ms, rest)

namespace ReadsBack

theorem zero (limits : Limits) : ReadsBack limits 0 where
  value v indent level rest h hlength _ := by
    obtain ⟨c, cs, hchars, -⟩ := exists_chars indent v h
    rw [hchars] at hlength
    cases hlength
  elements xs indent outer level rest _ hlength := absurd hlength (Nat.not_lt_zero _)
  member k v indent level rest _ hlength _ := by
    simp [memberChars, stringChars] at hlength
  members ms indent outer level rest _ hlength := absurd hlength (Nat.not_lt_zero _)

variable (h : ReadsBack limits fuel)

include h

theorem elements_succ (xs : List Json) (indent outer : Option Nat) (level : Nat)
    (rest : List Char) (hfits : elementsFit limits level xs = true)
    (hlength : (elementsChars indent xs).length < fuel + 1) :
    elements? limits (fuel + 1) level (elementsChars indent xs ++ lineStart outer ++ ']' :: rest) =
      some (xs, rest) := by
  cases xs with
  | nil =>
      rw [elementsChars, List.nil_append, elements?,
        skipSpace_append (all_isSpace_lineStart outer), skipSpace_cons (by decide)]
      rfl
  | cons x xs =>
      rw [elementsFit, Bool.and_eq_true] at hfits
      simp only [elementsChars, List.cons_append, List.append_assoc, List.length_cons,
        List.length_append] at hlength ⊢
      have hends := endsNumber_elements xs indent outer rest
      have hvalue := h.value x indent level _ hfits.1 (by omega) hends
      have helements := h.elements xs indent outer level rest hfits.2 (by omega)
      rw [List.append_assoc] at helements
      rw [elements?, skipSpace_cons (by decide)]
      simp only [value?_append (all_isSpace_lineStart indent), hvalue, helements,
        Option.bind_eq_bind, Option.bind_some, Option.pure_def]

theorem members_succ (ms : List (String × Json)) (indent outer : Option Nat) (level : Nat)
    (rest : List Char) (hfits : membersFit limits level ms = true)
    (hlength : (membersChars indent ms).length < fuel + 1) :
    members? limits (fuel + 1) level (membersChars indent ms ++ lineStart outer ++ '\x7d' :: rest) =
      some (ms, rest) := by
  cases ms with
  | nil =>
      rw [membersChars, List.nil_append, members?,
        skipSpace_append (all_isSpace_lineStart outer), skipSpace_cons (by decide)]
      rfl
  | cons m ms =>
      obtain ⟨k, v⟩ := m
      rw [membersFit, Bool.and_eq_true] at hfits
      have hchars : membersChars indent ((k, v) :: ms) =
          ',' :: (lineStart indent ++ (memberChars indent k v ++ membersChars indent ms)) := by
        simp [membersChars, memberChars]
      simp only [hchars, List.cons_append, List.append_assoc, List.length_cons,
        List.length_append] at hlength ⊢
      have hends := endsNumber_members ms indent outer rest
      have hmember := h.member k v indent level _ hfits.1 (by omega) hends
      have hmembers := h.members ms indent outer level rest hfits.2 (by omega)
      rw [List.append_assoc] at hmembers
      rw [members?, skipSpace_cons (by decide)]
      simp only [member?_append (all_isSpace_lineStart indent), hmember, hmembers,
        Option.bind_eq_bind, Option.bind_some, Option.pure_def]

theorem member_succ (k : String) (v : Json) (indent : Option Nat) (level : Nat)
    (rest : List Char) (hfits : fits limits level v = true)
    (hlength : (memberChars indent k v).length ≤ fuel + 1) (hrest : EndsNumber rest) :
    member? limits (fuel + 1) level (memberChars indent k v ++ rest) = some ((k, v), rest) := by
  simp only [memberChars, stringChars, List.cons_append, List.append_assoc, List.nil_append,
    List.length_cons, List.length_append] at hlength ⊢
  have hvalue := h.value v indent level rest hfits (by omega) hrest
  rw [member?, skipSpace_cons (by decide)]
  simp only [stringBody?_flatMap, skipSpace_cons (by decide : isSpace ':' = false),
    value?_append (all_isSpace_afterColon indent), hvalue, Option.bind_eq_bind, Option.bind_some,
    Option.pure_def, String.ofList_toList]

theorem arr_succ (x : Json) (xs : List Json) (indent : Option Nat) (level : Nat)
    (rest : List Char) (hfits : fits limits level (arr (x :: xs)) = true)
    (hlength : ((arr (x :: xs)).chars indent).length ≤ fuel + 1) :
    value? limits (fuel + 1) level ((arr (x :: xs)).chars indent ++ rest) =
      some (arr (x :: xs), rest) := by
  rw [fits, Bool.and_eq_true, Bool.and_eq_true] at hfits
  obtain ⟨⟨hdepth, hx⟩, hxs⟩ := hfits
  simp only [chars, List.cons_append, List.append_assoc, List.nil_append, List.length_cons,
    List.length_append] at hlength ⊢
  have hends := endsNumber_elements xs (indent.map (· + 1)) indent rest
  have hvalue := h.value x (indent.map (· + 1)) (level + 1) _ hx (by omega) hends
  have helements := h.elements xs (indent.map (· + 1)) indent (level + 1) rest hxs (by omega)
  rw [List.append_assoc] at helements
  obtain ⟨c, cs, hhead, hspace, hbracket⟩ := exists_chars (indent.map (· + 1)) x hx
  rw [hhead, List.cons_append] at hvalue
  rw [hhead, value?, skipSpace_cons (by decide)]
  simp only [skipSpace_append (all_isSpace_lineStart _), List.cons_append, skipSpace_cons hspace]
  split
  next hclosed => exact absurd (List.cons.inj hclosed).1 hbracket
  next =>
    simp only [hdepth, Bool.not_true, Bool.false_eq_true, if_false, hvalue, helements,
      Option.bind_eq_bind, Option.bind_some, Option.pure_def]

theorem obj_succ (k : String) (v : Json) (ms : List (String × Json)) (indent : Option Nat)
    (level : Nat) (rest : List Char) (hfits : fits limits level (obj ((k, v) :: ms)) = true)
    (hlength : ((obj ((k, v) :: ms)).chars indent).length ≤ fuel + 1) :
    value? limits (fuel + 1) level ((obj ((k, v) :: ms)).chars indent ++ rest) =
      some (obj ((k, v) :: ms), rest) := by
  rw [fits, Bool.and_eq_true, Bool.and_eq_true] at hfits
  obtain ⟨⟨hdepth, hv⟩, hms⟩ := hfits
  have hchars : (obj ((k, v) :: ms)).chars indent =
      '\x7b' :: (lineStart (indent.map (· + 1)) ++ (memberChars (indent.map (· + 1)) k v ++
        (membersChars (indent.map (· + 1)) ms ++ (lineStart indent ++ ['\x7d'])))) := by
    -- the blank behind the colon is there at every level or at none
    cases indent <;> simp [chars, memberChars, afterColon]
  simp only [hchars, List.cons_append, List.append_assoc, List.nil_append, List.length_cons,
    List.length_append] at hlength ⊢
  have hends := endsNumber_members ms (indent.map (· + 1)) indent rest
  have hmember := h.member k v (indent.map (· + 1)) (level + 1) _ hv (by omega) hends
  have hmembers := h.members ms (indent.map (· + 1)) indent (level + 1) rest hms (by omega)
  rw [List.append_assoc] at hmembers
  obtain ⟨cs, hhead⟩ : ∃ cs, memberChars (indent.map (· + 1)) k v = '\x22' :: cs := ⟨_, rfl⟩
  rw [hhead, List.cons_append] at hmember
  rw [hhead, value?, skipSpace_cons (by decide)]
  simp only [skipSpace_append (all_isSpace_lineStart _), List.cons_append,
    skipSpace_cons (by decide : isSpace '\x22' = false)]
  split
  next hclosed => exact absurd (List.cons.inj hclosed).1 (by decide)
  next =>
    simp only [hdepth, Bool.not_true, Bool.false_eq_true, if_false, hmember, hmembers,
      Option.bind_eq_bind, Option.bind_some, Option.pure_def]

theorem value_succ (v : Json) (indent : Option Nat) (level : Nat) (rest : List Char)
    (hfits : fits limits level v = true) (hlength : (v.chars indent).length ≤ fuel + 1)
    (hrest : EndsNumber rest) :
    value? limits (fuel + 1) level (v.chars indent ++ rest) = some (v, rest) := by
  cases v with
  | null => rw [chars, value?]; rfl
  | bool b => cases b <;> (rw [chars, value?]; rfl)
  | int n =>
      rw [fits, wholeFits, Bool.and_eq_true, decide_eq_true_eq] at hfits
      rw [chars, value?_intText hrest hfits.2, ofWhole, hfits.1, if_neg Bool.false_ne_true]
  | long n =>
      rw [fits, wholeFits, Bool.and_eq_true, decide_eq_true_eq] at hfits
      rw [chars, value?_intText hrest hfits.2, ofWhole, hfits.1, if_pos rfl]
  | real x => rw [fits] at hfits; cases hfits
  | str s =>
      rw [chars, stringChars, List.cons_append, List.cons_append, List.append_assoc, value?,
        skipSpace_cons (by decide)]
      simp only [List.singleton_append, stringBody?_flatMap, Option.map_some, String.ofList_toList]
  | arr xs =>
      cases xs with
      | nil => rw [chars, value?]; rfl
      | cons x xs => exact h.arr_succ x xs indent level rest hfits hlength
  | obj ms =>
      cases ms with
      | nil => rw [chars, value?]; rfl
      | cons m ms => exact h.obj_succ m.1 m.2 ms indent level rest hfits hlength

theorem succ : ReadsBack limits (fuel + 1) where
  value := h.value_succ
  elements := h.elements_succ
  member := h.member_succ
  members := h.members_succ

end ReadsBack

theorem readsBack (limits : Limits) : ∀ fuel, ReadsBack limits fuel
  | 0 => .zero limits
  | fuel + 1 => (readsBack limits fuel).succ

/-- A value within limits is read back from its text, whether that is on indented lines or in
compressed form. -/
theorem parse?_chars (limits : Limits) {v : Json} (h : fits limits 0 v = true)
    (indent : Option Nat) : parse? limits (String.ofList (v.chars indent)) = some v := by
  have hends : EndsNumber [] := fun _ _ hnil => nomatch hnil
  have hread := (readsBack limits (2 * (v.chars indent).length + 2)).value v indent 0 [] h
    (by omega) hends
  rw [List.append_nil] at hread
  rw [parse?, String.toList_ofList]
  simp only [hread]
  rfl

end Json

end Billing
