import StakeKeeper.Wire.Codec

/-!
Reading back what was written. A scanner `Reads` a tree when it cuts it from its own text, whatever
ends the value behind it. Main statements: `readText_writeText` (texts), `lex_ofNat` (numbers),
`scanParts_array` and `scanParts_object` (a whole is read back where its parts are).
-/
namespace StakeKeeper.Wire
set_option autoImplicit false
open Decimal

/-! ## Blanks and ends -/

/-- Whether a value ends before a text: at its end, at a comma or at a closing bracket or brace. -/
def Ends : List Char → Prop
  | [] => True
  | c :: _ => c = ',' ∨ c = ']' ∨ c = '}'

theorem ends_comma (cs : List Char) : Ends (',' :: cs) := Or.inl rfl

theorem ends_bracket (cs : List Char) : Ends (']' :: cs) := Or.inr (Or.inl rfl)

theorem ends_brace (cs : List Char) : Ends ('}' :: cs) := Or.inr (Or.inr rfl)

def Begins (c : Char) : Prop := skipBlanks [c] = [c] ∧ c ≠ ']' ∧ c ≠ '}'

instance (c : Char) : Decidable (Begins c) := inferInstanceAs (Decidable (_ ∧ _))

theorem skipBlanks_of_begins {c : Char} (h : Begins c) (cs : List Char) :
    skipBlanks (c :: cs) = c :: cs := by
  have hc := h.1
  unfold skipBlanks at hc ⊢
  rw [List.dropWhile_cons] at hc ⊢
  split at hc
  · cases hc
  · rename_i hblank
    rw [if_neg hblank]

/-! ## Texts -/

theorem lexText_writeChar (c : Char) (cs : List Char) :
    lexText (writeChar c ++ cs) =
      (lexText cs).map fun read => (.scalar c :: read.1, read.2) := by
  unfold writeChar
  split
  · rename_i hquote
    subst hquote
    cases h : lexText cs <;> simp [lexText, escaped?, h]
  · rename_i hquote
    split
    · rename_i hslash
      subst hslash
      cases h : lexText cs <;> simp [lexText, escaped?, h]
    · rename_i hslash
      split
      · rename_i hcontrol
        have hhi := Hex.digit?_digit (c.toNat / 16) (by omega)
        have hlo := Hex.digit?_digit (c.toNat % 16) (by omega)
        have hzero : Hex.digit? '0' = some 0 := by decide
        have hnumber : ((0 * 16 + 0) * 16 + c.toNat / 16) * 16 + c.toNat % 16 = c.toNat := by omega
        have hunit : CodeUnit.ofNat c.toNat = .scalar c := by
          rw [CodeUnit.ofNat, if_neg (by omega), if_neg (by omega), Char.ofNat_toNat]
        simp only [List.cons_append, List.nil_append, lexText, fourDigits?, hhi, hlo, hzero,
          Option.bind_eq_bind, Option.bind_some, Option.pure_def, hnumber, hunit]
        cases lexText cs <;> rfl
      · rename_i hcontrol
        rw [List.singleton_append, lexText.eq_def]
        split
        · simp_all
        · simp_all
        · simp_all
        · rename_i heq
          obtain ⟨rfl, rfl⟩ := List.cons.inj heq
          rw [if_neg hcontrol]
          cases lexText cs <;> rfl
        · simp_all

theorem lexText_writeText (s rest : List Char) :
    lexText (s.flatMap writeChar ++ '"' :: rest) = some (s.map .scalar, rest) := by
  induction s with
  | nil => rfl
  | cons c s ih =>
    rw [List.flatMap_cons, List.append_assoc, lexText_writeChar, ih]
    rfl

theorem joinUnits_scalars (s : List Char) : joinUnits (s.map .scalar) = some s := by
  induction s with
  | nil => rfl
  | cons c s ih => rw [List.map_cons, joinUnits, ih]; rfl

theorem readText_writeText (s : String) (rest : List Char) :
    readText ((s.toList.flatMap writeChar ++ ['"']) ++ rest) = some (some s, rest) := by
  rw [List.append_assoc, List.singleton_append, readText, lexText_writeText, Option.map_some]
  dsimp only
  rw [joinUnits_scalars, Option.map_some, String.ofList_toList]

theorem writeText_some (s : String) (rest : List Char) :
    writeText (some s) ++ rest = '"' :: ((s.toList.flatMap writeChar ++ ['"']) ++ rest) := rfl

/-! ## Numbers -/

theorem takeDigits_digitChars {ds : List Nat} {rest : List Char} (hds : ∀ d ∈ ds, d < 10)
    (hrest : Ends rest) : takeDigits (digitChars ds ++ rest) = (ds, rest) := by
  induction ds with
  | nil =>
    cases rest with
    | nil => rfl
    | cons c rest => rcases hrest with rfl | rfl | rfl <;> rfl
  | cons d ds ih =>
    have hd := digit?_digitChar (hds d List.mem_cons_self)
    have hrest := ih fun e he => hds e (List.mem_cons_of_mem d he)
    unfold digitChars at hrest ⊢
    rw [List.map_cons, List.cons_append, takeDigits, hd, hrest]

theorem takeWhole_digits (n : Nat) {rest : List Char} (hrest : Ends rest) :
    takeWhole (digitChars (digits n) ++ rest) = some (digits n, rest) := by
  rw [takeWhole, takeDigits_digitChars (fun _ => lt_ten_of_mem_digits) hrest]
  split
  · rename_i heq
    exact absurd (congrArg Prod.fst heq) (digits_ne_nil n)
  · rename_i heq
    cases head_digits_eq_zero (congrArg Prod.fst heq)
  · rename_i heq
    rw [heq]

theorem takeFraction_ends {rest : List Char} (hrest : Ends rest) :
    takeFraction rest = some (none, rest) := by
  cases rest with
  | nil => rfl
  | cons c rest => rcases hrest with rfl | rfl | rfl <;> rfl

theorem takeExponent_ends {rest : List Char} (hrest : Ends rest) :
    takeExponent rest = some (none, rest) := by
  cases rest with
  | nil => rfl
  | cons c rest => rcases hrest with rfl | rfl | rfl <;> rfl

theorem digitChars_digits (n : Nat) :
    ∃ d cs, d < 10 ∧ digitChars (digits n) = digitChar d :: cs := by
  obtain ⟨d, ds, hd⟩ := List.exists_cons_of_ne_nil (digits_ne_nil n)
  have hlt : d < 10 := lt_ten_of_mem_digits (n := n) (by rw [hd]; exact List.mem_cons_self)
  exact ⟨d, digitChars ds, hlt, by rw [hd]; rfl⟩

theorem write_ofNat (n : Nat) : (Literal.ofNat n).write = digitChars (digits n) := by
  simp [Literal.write, Literal.ofNat]

theorem lex_ofNat (n : Nat) {rest : List Char} (hrest : Ends rest) :
    Literal.lex ((Literal.ofNat n).write ++ rest) = some (Literal.ofNat n, rest) := by
  have hunsigned : Literal.lex (digitChars (digits n) ++ rest) =
      lexUnsigned false (digitChars (digits n) ++ rest) := by
    obtain ⟨d, cs, hd, hcs⟩ := digitChars_digits n
    have hsign : ∀ d : Fin 10, digitChar d.val ≠ '-' := by decide
    rw [hcs, List.cons_append, Literal.lex]
    intro text htext
    exact hsign ⟨d, hd⟩ (List.cons.inj htext).1
  rw [write_ofNat, hunsigned, lexUnsigned, takeWhole_digits n hrest]
  simp only [Option.bind_eq_bind, Option.bind_some, takeFraction_ends hrest,
    takeExponent_ends hrest, Option.pure_def, Literal.ofNat]

/-! ## Values -/

/-- Whether a scanner cuts a tree from its text, whatever ends the value behind it. -/
structure Scanner.Reads (scan : Scanner) (j : Json) : Prop where
  begins : ∃ c cs, j.chars = c :: cs ∧ Begins c
  reads : ∀ fuel rest, j.chars.length < fuel → Ends rest →
    scan fuel (j.chars ++ rest) = some (j, rest)

theorem Scanner.Reads.chars_ne_nil {scan : Scanner} {j : Json} (h : scan.Reads j) :
    j.chars ≠ [] := by
  obtain ⟨c, cs, hcs, _⟩ := h.begins
  rw [hcs]
  exact List.cons_ne_nil c cs

theorem Scanner.Reads.whole {scan : Scanner} {j : Json} (h : scan.Reads j) :
    scan.whole j.write = some j := by
  have hreads := h.reads (j.chars.length + 1) [] (Nat.lt_succ_self _) trivial
  rw [List.append_nil] at hreads
  unfold Scanner.whole Json.write
  dsimp only
  rw [String.toList_ofList, hreads]
  rfl

/-- A value without parts, as codecs write it. -/
inductive Json.Atom : Json → Prop
  | null : Json.null.Atom
  | bool (b : Bool) : (Json.bool b).Atom
  | number (n : Nat) : (Json.number (.ofNat n)).Atom
  | string (s : String) : (Json.string (some s)).Atom

theorem Json.Atom.begins {j : Json} (h : j.Atom) : ∃ c cs, j.chars = c :: cs ∧ Begins c := by
  cases h with
  | null => exact ⟨'n', _, rfl, by decide⟩
  | bool b => cases b <;> exact ⟨_, _, rfl, by decide⟩
  | number n =>
    obtain ⟨d, cs, hd, hcs⟩ := digitChars_digits n
    have hbegins : ∀ d : Fin 10, Begins (digitChar d.val) := by decide
    exact ⟨digitChar d, cs, by rw [Json.chars, write_ofNat, hcs], hbegins ⟨d, hd⟩⟩
  | string s => exact ⟨'"', _, rfl, by decide⟩

section
variable (element : Nat → Reader Json) (member : Text → Reader Json) (fuel : Nat)

/-- What starts with none of the marks of the other values is read as a number. -/
theorem readWith_of_unmarked {c : Char} (hbegins : Begins c)
    (hmarks : c ∉ ['n', 't', 'f', '"', '[', '{']) (cs : List Char) :
    readWith element member fuel (c :: cs) =
      (Literal.lex (c :: cs)).map fun read => (.number read.1, read.2) := by
  unfold readWith
  rw [skipBlanks_of_begins hbegins]
  split <;> simp_all

theorem readWith_atom {j : Json} (h : j.Atom) {rest : List Char} (hrest : Ends rest) :
    readWith element member fuel (j.chars ++ rest) = some (j, rest) := by
  cases h with
  | null => rfl
  | bool b => cases b <;> rfl
  | number n =>
    obtain ⟨d, cs, hd, hcs⟩ := digitChars_digits n
    have hlex := lex_ofNat n hrest
    have hbegins : ∀ d : Fin 10, Begins (digitChar d.val) := by decide
    have hmarks : ∀ d : Fin 10, digitChar d.val ∉ ['n', 't', 'f', '"', '[', '{'] := by decide
    rw [write_ofNat, hcs, List.cons_append] at hlex
    rw [Json.chars, write_ofNat, hcs, List.cons_append,
      readWith_of_unmarked element member fuel (hbegins ⟨d, hd⟩) (hmarks ⟨d, hd⟩), hlex]
    rfl
  | string s =>
    rw [Json.chars, writeText_some]
    show (readText _).map _ = _
    rw [readText_writeText]
    rfl

end

theorem readValue_atom {j : Json} (h : j.Atom) : readValue.Reads j where
  begins := h.begins
  reads fuel rest hfuel hrest := by
    obtain ⟨fuel, rfl⟩ := Nat.exists_eq_add_one_of_ne_zero (Nat.ne_zero_of_lt hfuel)
    exact readWith_atom _ _ fuel h hrest

theorem scanParts_atom {j : Json} (h : j.Atom) (element : Nat → Scanner)
    (member : Text → Scanner) : (scanParts element member).Reads j where
  begins := h.begins
  reads fuel rest hfuel hrest := by
    obtain ⟨fuel, rfl⟩ := Nat.exists_eq_add_one_of_ne_zero (Nat.ne_zero_of_lt hfuel)
    exact readWith_atom _ _ fuel h hrest

/-! ## Lists with commas -/

theorem elementChars_eq (es : List Json) : elementChars es = es.map Json.chars := by
  induction es with
  | nil => rfl
  | cons e es ih => rw [elementChars, ih, List.map_cons]

def memberText (m : String × Json) : List Char := writeText (some m.1) ++ ':' :: m.2.chars

theorem memberChars_some (ms : List (String × Json)) :
    memberChars (ms.map fun m => (some m.1, m.2)) = ms.map memberText := by
  induction ms with
  | nil => rfl
  | cons m ms ih => rw [List.map_cons, memberChars, ih, List.map_cons, memberText]

theorem withCommas_cons (t u : List Char) (ts : List (List Char)) :
    withCommas (t :: u :: ts) = t ++ ',' :: withCommas (u :: ts) := rfl

theorem length_le_withCommas {t : List Char} {ts : List (List Char)} (h : t ∈ ts) :
    t.length ≤ (withCommas ts).length := by
  induction ts with
  | nil => cases h
  | cons u ts ih =>
    cases ts with
    | nil =>
      rw [List.mem_singleton.1 h]
      exact Nat.le_refl _
    | cons v ts =>
      rw [withCommas_cons, List.length_append, List.length_cons]
      rcases List.mem_cons.1 h with rfl | h
      · omega
      · have := ih h
        omega

/-- No list has more parts than its text has characters. -/
theorem length_parts_le_withCommas (ts : List (List Char)) (h : ∀ t ∈ ts, t ≠ []) :
    ts.length ≤ (withCommas ts).length := by
  induction ts with
  | nil => exact Nat.le_refl _
  | cons u ts ih =>
    have hu : 0 < u.length := List.length_pos_iff.2 (h u List.mem_cons_self)
    cases ts with
    | nil => exact hu
    | cons v ts =>
      have htail := ih fun t ht => h t (List.mem_cons_of_mem u ht)
      rw [withCommas_cons, List.length_append, List.length_cons (a := ','),
        List.length_cons (a := u)]
      omega

theorem readElements_withCommas (element : Nat → Reader Json) {es : List Json} (hne : es ≠ [])
    (h : ∀ e ∈ es, ∀ i rest, Ends rest → element i (e.chars ++ rest) = some (e, rest))
    {fuel : Nat} (hfuel : es.length ≤ fuel) (i : Nat) (rest : List Char) :
    readElements element fuel i (withCommas (es.map Json.chars) ++ ']' :: rest) =
      some (es, rest) := by
  induction es generalizing fuel i with
  | nil => exact absurd rfl hne
  | cons e es ih =>
    obtain ⟨fuel, rfl⟩ := Nat.exists_eq_add_one_of_ne_zero (Nat.ne_of_gt (Nat.lt_of_lt_of_le
      (Nat.succ_pos es.length) hfuel))
    have hfirst := h e List.mem_cons_self i
    cases es with
    | nil =>
      show readElements element (fuel + 1) i (e.chars ++ ']' :: rest) = _
      rw [readElements, hfirst _ (ends_bracket rest)]
      rfl
    | cons f es =>
      have hrest := ih (List.cons_ne_nil f es) (fun g hg => h g (List.mem_cons_of_mem e hg))
        (Nat.le_of_succ_le_succ hfuel) (i + 1)
      rw [List.map_cons, List.map_cons, withCommas_cons, List.append_assoc, List.cons_append,
        readElements, hfirst _ (ends_comma _)]
      show (readElements element fuel (i + 1) _ >>= _) = _
      rw [← List.map_cons, hrest]
      rfl

theorem readMembers_withCommas (member : Text → Reader Json) {ms : List (String × Json)}
    (hne : ms ≠ [])
    (h : ∀ m ∈ ms, ∀ rest, Ends rest → member (some m.1) (m.2.chars ++ rest) = some (m.2, rest))
    {fuel : Nat} (hfuel : ms.length ≤ fuel) (rest : List Char) :
    readMembers member fuel (withCommas (ms.map memberText) ++ '}' :: rest) =
      some (ms.map fun m => (some m.1, m.2), rest) := by
  induction ms generalizing fuel with
  | nil => exact absurd rfl hne
  | cons m ms ih =>
    obtain ⟨fuel, rfl⟩ := Nat.exists_eq_add_one_of_ne_zero (Nat.ne_of_gt (Nat.lt_of_lt_of_le
      (Nat.succ_pos ms.length) hfuel))
    have hfirst := h m List.mem_cons_self
    cases ms with
    | nil =>
      show readMembers member (fuel + 1) (memberText m ++ '}' :: rest) = _
      rw [memberText, List.append_assoc, writeText_some, readMembers]
      show (readText _ >>= _) = _
      rw [readText_writeText]
      show (member (some m.1) (m.2.chars ++ '}' :: rest) >>= _) = _
      rw [hfirst _ (ends_brace rest)]
      rfl
    | cons n ms =>
      have hrest := ih (List.cons_ne_nil n ms) (fun k hk => h k (List.mem_cons_of_mem m hk))
        (Nat.le_of_succ_le_succ hfuel)
      rw [List.map_cons, List.map_cons, withCommas_cons, memberText, List.append_assoc,
        List.append_assoc, writeText_some, readMembers]
      show (readText _ >>= _) = _
      rw [readText_writeText]
      show (member (some m.1) (m.2.chars ++ ',' :: (_ ++ '}' :: rest)) >>= _) = _
      rw [hfirst _ (ends_comma _)]
      show (readMembers member fuel _ >>= _) = _
      rw [← List.map_cons, hrest]
      rfl

/-! ## Wholes -/

theorem scanParts_array {element : Nat → Scanner} {member : Text → Scanner} {es : List Json}
    (h : ∀ e ∈ es, ∀ i, (element i).Reads e) : (scanParts element member).Reads (.array es) where
  begins := ⟨'[', _, rfl, by decide⟩
  reads fuel rest hfuel hrest := by
    obtain ⟨fuel, rfl⟩ := Nat.exists_eq_add_one_of_ne_zero (Nat.ne_zero_of_lt hfuel)
    rw [Json.chars, elementChars_eq] at hfuel ⊢
    rw [List.length_cons, List.length_append, List.length_singleton] at hfuel
    cases es with
    | nil => rfl
    | cons e es =>
      have hcount : (e :: es).length ≤ fuel := by
        have := length_parts_le_withCommas ((e :: es).map Json.chars) fun t ht => by
          obtain ⟨f, hf, rfl⟩ := List.mem_map.1 ht
          exact (h f hf 0).chars_ne_nil
        rw [List.length_map] at this
        omega
      have hread := readElements_withCommas (fun i => element i fuel)
        (List.cons_ne_nil e es) (fun f hf i rest hrest => (h f hf i).reads fuel rest (by
          have := length_le_withCommas (List.mem_map_of_mem (f := Json.chars) hf)
          omega) hrest) hcount 0 rest
      obtain ⟨c, cs, hcs, hbegins⟩ := (h e List.mem_cons_self 0).begins
      obtain ⟨tail, htail⟩ : ∃ tail,
          withCommas ((e :: es).map Json.chars) ++ ']' :: rest = c :: tail := by
        cases es <;> simp [withCommas, hcs]
      have hne := hbegins.2.1
      rw [htail] at hread
      rw [List.cons_append, List.append_assoc, List.singleton_append, htail]
      have hopen : Begins '[' := by decide
      rw [scanParts, readWith, skipBlanks_of_begins hopen]
      simp only [skipBlanks_of_begins hbegins]
      split
      · simp_all
      · rw [hread]
        rfl

theorem scanParts_object {element : Nat → Scanner} {member : Text → Scanner}
    (ms : List (String × Json)) (h : ∀ m ∈ ms, (member (some m.1)).Reads m.2) :
    (scanParts element member).Reads (.object (ms.map fun m => (some m.1, m.2))) where
  begins := ⟨'{', _, rfl, by decide⟩
  reads fuel rest hfuel hrest := by
    obtain ⟨fuel, rfl⟩ := Nat.exists_eq_add_one_of_ne_zero (Nat.ne_zero_of_lt hfuel)
    rw [Json.chars, memberChars_some] at hfuel ⊢
    rw [List.length_cons, List.length_append, List.length_singleton] at hfuel
    cases ms with
    | nil => rfl
    | cons m ms =>
      have hcount : (m :: ms).length ≤ fuel := by
        have := length_parts_le_withCommas ((m :: ms).map memberText) fun t ht => by
          obtain ⟨n, hn, rfl⟩ := List.mem_map.1 ht
          exact List.cons_ne_nil _ _
        rw [List.length_map] at this
        omega
      have hread := readMembers_withCommas (fun name => member name fuel)
        (List.cons_ne_nil m ms) (fun n hn rest hrest => (h n hn).reads fuel rest (by
          have := length_le_withCommas (List.mem_map_of_mem (f := memberText) hn)
          rw [memberText, List.length_append, List.length_cons] at this
          omega) hrest) hcount rest
      obtain ⟨tail, htail⟩ : ∃ tail,
          withCommas ((m :: ms).map memberText) ++ '}' :: rest = '"' :: tail := by
        cases ms <;> simp [withCommas, memberText, writeText]
      rw [htail] at hread
      rw [List.cons_append, List.append_assoc, List.singleton_append, htail]
      show (readMembers _ fuel ('"' :: tail)).map _ = _
      rw [hread]
      rfl

end StakeKeeper.Wire
