import HttpGateway.Regex.Class

/-!
# Parts of patterns before more text

A pattern that is put into a group of another is read as it is read alone, part by part, but for its
end. There a reader may find the end of the group where it has found nothing before, and a comment
that the pattern leaves open hides the end of the group.
-/

namespace HttpGateway.Regex

open HttpGateway.Text (isBlank digit? hexDigit?)

variable {α β : Type}

/-- What stands after a pattern in its wrapper: the end of the group, and that of the value. -/
def closing : List Char := [')', '$']

theorem isBlank_paren : isBlank ')' = false := rfl

theorem isDigit_paren : Char.isDigit ')' = false := rfl

/-- What is left of a pattern alone, and in its wrapper. At the end of the pattern the rest of the
wrapper may be lost in a comment. -/
inductive Closes : List Char → List Char → Prop where
  | closing : Closes [] closing
  | lost : Closes [] []
  | cons {c : Char} {s s' : List Char} (tail : Closes s s') (ne_nil : s' ≠ []) :
      Closes (c :: s) (c :: s')

namespace Closes

variable {s s' : List Char} {f : Flags}

theorem append (s : List Char) : Closes s (s ++ Regex.closing) := by
  induction s with
  | nil => exact .closing
  | cons c s ih => exact .cons ih (by simp [Regex.closing])

theorem eq_or (h : Closes s s') : s' = s ++ Regex.closing ∨ s = [] ∧ s' = [] := by
  induction h with
  | closing => exact .inl rfl
  | lost => exact .inr ⟨rfl, rfl⟩
  | cons _ ne_nil ih =>
      rcases ih with rfl | ⟨-, rfl⟩
      · exact .inl rfl
      · exact absurd rfl ne_nil

theorem takeWhile_eq {p : Char → Bool} (hp : p ')' = false) (h : Closes s s') :
    s'.takeWhile p = s.takeWhile p := by
  induction h with
  | closing => simp [Regex.closing, hp]
  | lost => rfl
  | @cons c _ _ _ _ ih => cases hc : p c <;> simp [hc, ih]

theorem dropWhile {p : Char → Bool} (hp : p ')' = false) (h : Closes s s') :
    Closes (s.dropWhile p) (s'.dropWhile p) := by
  induction h with
  | closing => simpa [Regex.closing, hp] using Closes.closing
  | lost => exact .lost
  | @cons c _ _ tail ne_nil ih =>
      cases hc : p c with
      | true => simpa [hc] using ih
      | false => simpa [hc] using Closes.cons tail ne_nil

theorem skipBlanks_append (inComment : Bool) (s : List Char) :
    Closes (skipBlanks inComment s) (skipBlanks inComment (s ++ Regex.closing)) := by
  induction s generalizing inComment with
  | nil =>
      cases inComment with
      | true => exact .lost
      | false => exact .closing
  | cons c s ih =>
      cases inComment with
      | true => exact ih _
      | false =>
          rw [List.cons_append, skipBlanks, skipBlanks]
          split
          · exact ih false
          · split
            · exact ih true
            · exact append (c :: s)

theorem skip (h : Closes s s') : Closes (skip f s) (skip f s') := by
  unfold Regex.skip
  split
  · rcases h.eq_or with rfl | ⟨rfl, rfl⟩
    · exact skipBlanks_append false s
    · exact .lost
  · exact h

end Closes

theorem skip_nil (f : Flags) : skip f [] = [] := by
  unfold skip
  split <;> rfl

theorem skip_of_solid {f : Flags} {c : Char} (hblank : isBlank c = false) (hcomment : c ≠ '#')
    (rest : List Char) : skip f (c :: rest) = c :: rest := by
  unfold skip
  split
  · rw [skipBlanks, if_neg (by simp [hblank]), if_neg hcomment]
  · rfl

theorem skip_closing (f : Flags) : skip f closing = closing :=
  skip_of_solid (by decide) (by decide) _

theorem skip_dollar (f : Flags) : skip f ['$'] = ['$'] := skip_of_solid rfl (by decide) _

theorem length_skipBlanks_le (inComment : Bool) (s : List Char) :
    (skipBlanks inComment s).length ≤ s.length := by
  induction s generalizing inComment with
  | nil => cases inComment <;> exact Nat.le_refl 0
  | cons c s ih =>
      cases inComment with
      | true => exact Nat.le_succ_of_le (ih _)
      | false =>
          rw [skipBlanks]
          split
          · exact Nat.le_succ_of_le (ih false)
          · split
            · exact Nat.le_succ_of_le (ih true)
            · exact Nat.le_refl _

theorem length_skip_le (f : Flags) (s : List Char) : (skip f s).length ≤ s.length := by
  unfold skip
  split
  · exact length_skipBlanks_le false s
  · exact Nat.le_refl _

theorem length_dropWhile_le (p : Char → Bool) (s : List Char) :
    (s.dropWhile p).length ≤ s.length :=
  (List.dropWhile_sublist p).length_le

theorem drop_length_takeWhile (p : Char → Bool) (s : List Char) :
    s.drop (s.takeWhile p).length = s.dropWhile p := by
  induction s with
  | nil => rfl
  | cons c s ih => cases hc : p c <;> simp [hc, ih]

theorem length_lt_of_dropWhile {p : Char → Bool} {c : Char} {s t : List Char}
    (h : s.dropWhile p = c :: t) : t.length < s.length := by
  have hle := length_dropWhile_le p s
  rw [h] at hle
  exact hle

/-- What a reader makes of a pattern alone, and in its wrapper: the same, if it succeeds alone; and
if it succeeds only in the wrapper, what it leaves is as described by `D`. -/
inductive Alike (D : α → List Char → Prop) (n : Nat) :
    Except PatternError (α × List Char) → Except PatternError (α × List Char) → Prop where
  | both {a : α} {rest rest' : List Char} (closes : Closes rest rest') (le : rest.length ≤ n) :
      Alike D n (.ok (a, rest)) (.ok (a, rest'))
  | neither {e e' : PatternError} : Alike D n (.error e) (.error e')
  | late {e : PatternError} {a : α} {rest' : List Char} (left : D a rest') :
      Alike D n (.error e) (.ok (a, rest'))

/-- The reader succeeds alone if it succeeds in the wrapper. -/
def Never (_ : α) (_ : List Char) : Prop := False

namespace Alike

variable {D : α → List Char → Prop} {D' : β → List Char → Prop} {n n' : Nat}
  {x y : Except PatternError (α × List Char)}

theorem bind {g g' : α × List Char → Except PatternError (β × List Char)} (h : Alike D n x y)
    (hboth : ∀ a rest rest', Closes rest rest' → rest.length ≤ n →
      Alike D' n' (g (a, rest)) (g' (a, rest')))
    (hlate : ∀ e a rest', D a rest' → Alike D' n' (.error e) (g' (a, rest'))) :
    Alike D' n' (x >>= g) (y >>= g') := by
  cases h with
  | both closes le => exact hboth _ _ _ closes le
  | neither => exact .neither
  | late left => exact hlate _ _ _ left

theorem bind_never {g g' : α × List Char → Except PatternError (β × List Char)}
    (h : Alike Never n x y)
    (hboth : ∀ a rest rest', Closes rest rest' → rest.length ≤ n →
      Alike D' n' (g (a, rest)) (g' (a, rest'))) : Alike D' n' (x >>= g) (y >>= g') :=
  h.bind hboth fun _ _ _ => False.elim

theorem mono (h : Alike D n x y) (hn : n ≤ n') {D' : α → List Char → Prop}
    (hD : ∀ a rest, D a rest → D' a rest) : Alike D' n' x y := by
  cases h with
  | both closes le => exact .both closes (Nat.le_trans le hn)
  | neither => exact .neither
  | late left => exact .late (hD _ _ left)

end Alike

/-- What a reader that cannot fail takes of a pattern alone, and in its wrapper: the same. -/
structure AlikeTaken (n : Nat) (x y : α × List Char) : Prop where
  same : y.1 = x.1
  closes : Closes x.2 y.2
  le : x.2.length ≤ n

/-! ### Escapes -/

variable {f : Flags} {s s' : List Char}

theorem scanHexBraced_cons {c : Char} (hc : c ≠ '\x7d') (acc rest : List Char) :
    scanHexBraced f acc (c :: rest) =
      if (hexDigit? c).isSome then scanHexBraced f (c :: acc) rest
      else if f.extended ∧ isBlank c then scanHexBraced f acc rest
      else .error .escape := by
  rw [scanHexBraced.eq_def]
  split <;> simp_all

theorem alike_scanHexBraced (acc : List Char) (h : Closes s s') :
    Alike Never s.length (scanHexBraced f acc s) (scanHexBraced f acc s') := by
  induction h generalizing acc with
  | closing =>
      have hclosing : scanHexBraced f acc closing = .error .escape := by
        simp [scanHexBraced, closing]
      have hnil : scanHexBraced f acc [] = .error .escape := by simp [scanHexBraced]
      rw [hclosing, hnil]
      exact .neither
  | lost =>
      have hnil : scanHexBraced f acc [] = .error .escape := by simp [scanHexBraced]
      rw [hnil]
      exact .neither
  | @cons c s s' tail _ ih =>
      by_cases hc : c = '\x7d'
      · subst hc
        exact .both tail.skip (Nat.le_succ_of_le (length_skip_le f s))
      · rw [scanHexBraced_cons hc, scanHexBraced_cons hc]
        split
        · exact (ih _).mono (Nat.le_succ _) fun _ _ => id
        · split
          · exact (ih _).mono (Nat.le_succ _) fun _ _ => id
          · exact .neither

theorem alike_scanHexFixed (k : Nat) (acc : List Char) (h : Closes s s') :
    Alike Never s.length (scanHexFixed f k acc s) (scanHexFixed f k acc s') := by
  induction k generalizing acc s s' with
  | zero => exact .both h.skip (length_skip_le f s)
  | succ k ih =>
      have hlength := length_skip_le f s
      have hskip := h.skip (f := f)
      rw [scanHexFixed, scanHexFixed]
      generalize skip f s = u at hskip hlength
      generalize skip f s' = u' at hskip
      cases hskip with
      | closing => exact .neither
      | lost => exact .neither
      | cons tail _ =>
          dsimp only
          split
          · exact (ih _ tail).mono (Nat.le_of_succ_le hlength) fun _ _ => id
          · exact .neither

theorem alike_charOf? {D : Atom → List Char → Prop} {n : Nat} {rest rest' : List Char}
    (code : Nat) (atom : Char → Atom) (closes : Closes rest rest') (le : rest.length ≤ n) :
    Alike D n
      (match charOf? code with
        | some c => .ok (atom c, rest)
        | none => .error .escape)
      (match charOf? code with
        | some c => .ok (atom c, rest')
        | none => .error .escape) := by
  cases charOf? code with
  | some c => exact .both closes le
  | none => exact .neither

/-- Reads the rest of an escape that has a fixed number of hexadecimal digits. -/
def scanHexPlain (f : Flags) (width : Nat) : Scan Atom := fun s => do
  let (ds, rest) ← scanHexFixed f width [] s
  let n := Unicode.hexNumber ds
  match charOf? n with
  | some c => .ok (if width = 2 ∧ 127 < n then .byte n else .char c, rest)
  | none => .error .escape

theorem alike_scanHexPlain (width : Nat) (h : Closes s s') :
    Alike Never s.length (scanHexPlain f width s) (scanHexPlain f width s') :=
  (alike_scanHexFixed width [] h).bind_never fun _ _ _ closes le => alike_charOf? _ _ closes le

theorem alike_scanHex (letter : Char) (h : Closes s s') :
    Alike Never s.length (scanHex f letter s) (scanHex f letter s') := by
  have hlength := length_skip_le f s
  have hskip := h.skip (f := f)
  unfold scanHex
  generalize skip f s = u at hskip hlength
  generalize skip f s' = u' at hskip
  dsimp only
  generalize (if letter = 'x' then 2 else if letter = 'u' then 4 else 8) = width
  have hfixed {v v' : List Char} (hv : Closes v v') (hlength : v.length ≤ s.length) :
      Alike Never s.length (scanHexPlain f width v) (scanHexPlain f width v') :=
    (alike_scanHexPlain width hv).mono hlength fun _ _ => id
  cases hskip with
  | closing => exact hfixed .closing hlength
  | lost => exact hfixed .lost hlength
  | cons tail ne_nil =>
      split
      · next heq =>
        cases heq
        refine (alike_scanHexBraced [] tail).bind_never fun ds rest rest' closes le => ?_
        dsimp only
        split
        · exact .neither
        · exact alike_charOf? _ _ closes (Nat.le_trans le (Nat.le_of_succ_le hlength))
      · next hother =>
        split
        · next heq =>
          cases heq
          exact (hother _ rfl).elim
        · exact hfixed (.cons tail ne_nil) hlength

/-! ### Properties -/

theorem Closes.dropWhile_cases {p : Char → Bool} (hp : ∀ c ∈ Regex.closing, p c = true)
    (h : Closes s s') :
    (s.dropWhile p = [] ∧ s'.dropWhile p = []) ∨
      ∃ c t t', s.dropWhile p = c :: t ∧ s'.dropWhile p = c :: t' ∧ Closes t t' ∧
        s'.takeWhile p = s.takeWhile p := by
  induction h with
  | closing =>
      have hclosing : p ')' = true ∧ p '$' = true := by simpa [Regex.closing] using hp
      exact .inl ⟨rfl, by simp [Regex.closing, hclosing]⟩
  | lost => exact .inl ⟨rfl, rfl⟩
  | @cons c s s' tail _ ih =>
      cases hc : p c with
      | true => simpa [hc] using ih
      | false => exact .inr ⟨c, s, s', by simp [hc], by simp [hc], tail, by simp [hc]⟩

/-- What a reader of an escape that has succeeded only in the wrapper has left: the end of the
wrapper, whose parenthesis it has taken, or the brace that follows a word boundary. -/
def EscapeLeft (f : Flags) (a : Atom) (rest : List Char) : Prop :=
  rest = ['$'] ∨ (∃ l, a = .look l) ∧ ∃ u, rest = '\x7b' :: u ∧ skip f u = closing

theorem scanPropertyText_of_brace {rest : List Char} (h : skip f s = '\x7b' :: rest) :
    scanPropertyText f s = match rest.dropWhile (· ≠ '\x7d') with
      | _ :: after =>
        let inner := rest.takeWhile (· ≠ '\x7d')
        .ok (if f.extended then inner.filter fun c => !isBlank c else inner, after)
      | [] => .error .escape := by
  rw [scanPropertyText, h]
  rfl

theorem scanPropertyText_of_letter {c : Char} {rest : List Char} (h : skip f s = c :: rest)
    (hbrace : c ≠ '\x7b') (hslash : c ≠ '\\') : scanPropertyText f s = .ok ([c], skip f rest) := by
  rw [scanPropertyText, h]
  split <;> simp_all

theorem alike_scanPropertyText (h : Closes s s') :
    Alike (fun _ rest => rest = ['$']) s.length (scanPropertyText f s) (scanPropertyText f s') := by
  have hlength := length_skip_le f s
  have hskip := h.skip (f := f)
  generalize hu : skip f s = u at hskip hlength
  generalize hu' : skip f s' = u' at hskip
  cases hskip with
  | closing =>
      rw [scanPropertyText, hu, scanPropertyText_of_letter hu' (by decide) (by decide), skip_dollar]
      exact .late rfl
  | lost =>
      rw [scanPropertyText, hu, scanPropertyText, hu']
      exact .neither
  | @cons c u u' tail ne_nil =>
      have hlength : u.length < s.length := hlength
      by_cases hbrace : c = '\x7b'
      · subst hbrace
        rw [scanPropertyText_of_brace hu, scanPropertyText_of_brace hu']
        rcases tail.dropWhile_cases (p := (· ≠ '\x7d')) (by simp [closing]) with
          ⟨hdrop, hdrop'⟩ | ⟨c, t, t', hdrop, hdrop', htail, htake⟩
        · rw [hdrop, hdrop']
          exact .neither
        · rw [hdrop, hdrop', htake]
          have ht := length_lt_of_dropWhile hdrop
          exact .both htail (by omega)
      · by_cases hslash : c = '\\'
        · subst hslash
          rw [scanPropertyText, hu, scanPropertyText, hu']
          exact .neither
        · rw [scanPropertyText_of_letter hu hbrace hslash,
            scanPropertyText_of_letter hu' hbrace hslash]
          have hle := length_skip_le f u
          exact .both tail.skip (by omega)

theorem alike_scanProperty (letter : Char) (h : Closes s s') :
    Alike (EscapeLeft f) s.length (scanProperty f letter s) (scanProperty f letter s') := by
  refine (alike_scanPropertyText h).bind (fun text rest rest' closes le => ?_)
    fun e text rest hrest => ?_
  · dsimp only
    split
    · exact .neither
    · split
      · exact .neither
      · exact .both closes le
  · dsimp only
    split
    · exact .neither
    · split
      · exact .neither
      · exact .late (.inl hrest)

/-! ### Word boundaries -/

/-- A character of the kind of a word boundary. -/
def isKindChar (c : Char) : Bool := c.isAlpha || c = '-'

/-- Reads the brace after the word of a word boundary. -/
def scanWordEnd (f : Flags) (word : String) : Scan (Option Look) := fun s =>
  match word, s with
  | "start", '\x7d' :: rest => .ok (some (.wordStart f.unicode), rest)
  | "end", '\x7d' :: rest => .ok (some (.wordEnd f.unicode), rest)
  | "start-half", '\x7d' :: rest => .ok (some (.wordStartHalf f.unicode), rest)
  | "end-half", '\x7d' :: rest => .ok (some (.wordEndHalf f.unicode), rest)
  | _, _ => .error .escape

/-- A character that may stand within the braces of a word boundary. -/
def isWordPart (f : Flags) (c : Char) : Bool := isKindChar c || (f.extended && isBlank c)

theorem scanWordKind_of_cons {rest u : List Char} {c : Char} (h : skip f rest = c :: u) :
    scanWordKind f ('\x7b' :: rest) =
      if !isKindChar c then .ok (none, '\x7b' :: rest)
      else scanWordEnd f (String.ofList (((c :: u).takeWhile (isWordPart f)).filter isKindChar))
        ((c :: u).dropWhile (isWordPart f)) := by
  rw [scanWordKind, h]
  rfl

theorem scanWordKind_of_ne {c : Char} (hc : c ≠ '\x7b') (rest : List Char) :
    scanWordKind f (c :: rest) = .ok (none, c :: rest) := by
  unfold scanWordKind
  split <;> simp_all

theorem alike_scanWordEnd (word : String) (h : Closes s s') :
    Alike Never s.length (scanWordEnd f word s) (scanWordEnd f word s') := by
  unfold scanWordEnd
  cases h with
  | closing =>
      split <;> split <;> simp_all [closing]
      exact .neither
  | lost =>
      split <;> simp_all
      exact .neither
  | cons tail _ =>
      split
      iterate 4
        · next heq =>
          cases heq
          exact .both tail (Nat.le_succ _)
      · next hstart hend hstartHalf hendHalf =>
        split
        · next heq => cases heq; exact (hstart _ rfl rfl).elim
        · next heq => cases heq; exact (hend _ rfl rfl).elim
        · next heq => cases heq; exact (hstartHalf _ rfl rfl).elim
        · next heq => cases heq; exact (hendHalf _ rfl rfl).elim
        · exact .neither

theorem isWordPart_paren (f : Flags) : isWordPart f ')' = false := by
  have hkind : isKindChar ')' = false := rfl
  simp [isWordPart, hkind, isBlank_paren]

theorem alike_scanWordKind (h : Closes s s') :
    Alike (fun _ rest => ∃ u, rest = '\x7b' :: u ∧ skip f u = closing) s.length
      (scanWordKind f s) (scanWordKind f s') := by
  have hself : Closes s s' := h
  cases h with
  | closing => exact .both .closing (Nat.le_refl _)
  | lost => exact .both .lost (Nat.le_refl _)
  | @cons c s s' tail ne_nil =>
      by_cases hc : c = '\x7b'
      · subst hc
        have hlength := length_skip_le f s
        have hskip := tail.skip (f := f)
        generalize hu : skip f s = u at hskip hlength
        generalize hu' : skip f s' = u' at hskip
        cases hskip with
        | closing =>
            rw [scanWordKind, hu, scanWordKind_of_cons hu', if_pos (by decide)]
            exact .late ⟨s', rfl, hu'⟩
        | lost =>
            rw [scanWordKind, hu, scanWordKind, hu']
            exact .neither
        | @cons c u u' htail hne =>
            rw [scanWordKind_of_cons hu, scanWordKind_of_cons hu']
            split
            · exact .both hself (Nat.le_refl _)
            · have hu : Closes (c :: u) (c :: u') := .cons htail hne
              rw [hu.takeWhile_eq (isWordPart_paren f)]
              have hle := length_dropWhile_le (isWordPart f) (c :: u)
              exact (alike_scanWordEnd _ (hu.dropWhile (isWordPart_paren f))).mono
                (by simp at hlength hle ⊢; omega) fun _ _ => False.elim
      · rw [scanWordKind_of_ne hc, scanWordKind_of_ne hc]
        exact .both hself (Nat.le_refl _)

/-! ### Escapes as a whole -/

theorem scanEscape_closing (f : Flags) : scanEscape f closing = .ok (.char ')', ['$']) := rfl

theorem alike_scanEscape (h : Closes s s') :
    Alike (EscapeLeft f) s.length (scanEscape f s) (scanEscape f s') := by
  cases h with
  | closing =>
      rw [scanEscape_closing]
      exact .late (.inl rfl)
  | lost => exact .neither
  | @cons c s s' tail ne_nil =>
      have hlength : s.length ≤ (c :: s).length := Nat.le_succ _
      simp only [scanEscape]
      split
      · exact .neither
      · split
        iterate 3 exact (alike_scanHex _ tail).mono hlength fun _ _ => False.elim
        iterate 2 exact (alike_scanProperty _ tail).mono hlength fun _ _ => id
        iterate 17 exact .both tail hlength
        · refine (alike_scanWordKind tail).bind (fun kind rest rest' closes le => ?_)
            fun e kind rest hleft => ?_
          · exact .both closes (Nat.le_trans le hlength)
          · exact .late (.inr ⟨⟨_, rfl⟩, hleft⟩)
        · split
          · exact .both tail hlength
          · exact .neither

/-! ### Counts -/

/-- A character that may stand in a number of a count. -/
def isCountPart (f : Flags) (c : Char) : Bool := c.isDigit || (f.extended && isBlank c)

theorem isCountPart_paren (f : Flags) : isCountPart f ')' = false := by
  simp [isCountPart, isDigit_paren, isBlank_paren]

theorem alike_scanDecimal (h : Closes s s') :
    Alike Never s.length (scanDecimal f s) (scanDecimal f s') := by
  have hpart := isCountPart_paren f
  have hstart := h.dropWhile isBlank_paren
  have hrest := ((hstart.dropWhile hpart).skip (f := f)).dropWhile isBlank_paren
  have hlength : ((skip f ((s.dropWhile isBlank).dropWhile (isCountPart f))).dropWhile
      isBlank).length ≤ s.length :=
    calc
      _ ≤ (skip f ((s.dropWhile isBlank).dropWhile (isCountPart f))).length :=
        length_dropWhile_le _ _
      _ ≤ ((s.dropWhile isBlank).dropWhile (isCountPart f)).length := length_skip_le f _
      _ ≤ (s.dropWhile isBlank).length := length_dropWhile_le _ _
      _ ≤ s.length := length_dropWhile_le _ _
  have hcount : (fun c : Char => c.isDigit || (f.extended && isBlank c)) = isCountPart f := rfl
  unfold scanDecimal
  dsimp only
  rw [hcount, hstart.takeWhile_eq hpart]
  split
  · exact .neither
  · exact .both hrest hlength

theorem scanDecimal_closing (f : Flags) : scanDecimal f closing = .error .count := by
  simp [scanDecimal, closing, isDigit_paren, isBlank_paren]

/-- Reads the brace after the upper bound of a count. -/
def scanCountEnd (low high : Nat) : Scan (Nat × Option Nat)
  | '\x7d' :: rest => if low ≤ high then .ok ((low, some high), rest) else .error .count
  | _ => .error .count

theorem alike_scanCountEnd (low high : Nat) (h : Closes s s') :
    Alike Never s.length (scanCountEnd low high s) (scanCountEnd low high s') := by
  cases h with
  | closing => exact .neither
  | lost => exact .neither
  | @cons c s s' tail _ =>
      by_cases hc : c = '\x7d'
      · subst hc
        have hbrace (t : List Char) : scanCountEnd low high ('\x7d' :: t) =
            if low ≤ high then .ok ((low, some high), t) else .error .count := rfl
        rw [hbrace, hbrace]
        split
        · exact .both tail (Nat.le_succ _)
        · exact .neither
      · have hother (t : List Char) : scanCountEnd low high (c :: t) = .error .count := by
          unfold scanCountEnd
          split <;> simp_all
        rw [hother, hother]
        exact .neither

/-- Reads what follows the comma of a count. -/
def scanUpper (f : Flags) (low : Nat) : Scan (Nat × Option Nat) := fun s =>
  match skip f s with
  | '\x7d' :: rest => .ok ((low, none), rest)
  | rest => do
    let (high, rest) ← scanDecimal f rest
    scanCountEnd low high rest

theorem alike_scanUpper (low : Nat) (h : Closes s s') :
    Alike Never s.length (scanUpper f low s) (scanUpper f low s') := by
  have hlength := length_skip_le f s
  have hskip := h.skip (f := f)
  have hbound {u u' : List Char} (hu : Closes u u') (hlength : u.length ≤ s.length) :
      Alike Never s.length
        (do
          let (high, rest) ← scanDecimal f u
          scanCountEnd low high rest)
        (do
          let (high, rest) ← scanDecimal f u'
          scanCountEnd low high rest) :=
    (alike_scanDecimal hu).bind_never fun high rest rest' closes le =>
      (alike_scanCountEnd low high closes).mono (Nat.le_trans le hlength) fun _ _ => id
  unfold scanUpper
  generalize skip f s = u at hskip hlength
  generalize skip f s' = u' at hskip
  cases hskip with
  | closing => exact hbound .closing hlength
  | lost => exact hbound .lost hlength
  | cons tail ne_nil =>
      split
      · next heq =>
        cases heq
        exact .both tail (Nat.le_of_succ_le hlength)
      · next hother =>
        split
        · next heq =>
          cases heq
          exact (hother _ rfl).elim
        · exact hbound (.cons tail ne_nil) hlength

theorem alike_scanCount (h : Closes s s') :
    Alike Never s.length (scanCount f s) (scanCount f s') := by
  unfold scanCount
  refine (alike_scanDecimal h.skip).bind_never fun low rest rest' closes le => ?_
  have hle := Nat.le_trans le (length_skip_le f s)
  dsimp only
  cases closes with
  | closing => exact .neither
  | lost => exact .neither
  | @cons c t t' tail ne_nil =>
      have ht : t.length ≤ s.length := Nat.le_of_succ_le hle
      by_cases hcomma : c = ','
      · subst hcomma
        exact (alike_scanUpper low tail).mono ht fun _ _ => id
      · by_cases hbrace : c = '\x7d'
        · subst hbrace
          exact .both tail ht
        · split
          · simp_all
          · simp_all
          · split
            · simp_all
            · simp_all
            · exact .neither

/-! ### Flags -/

theorem scanFlags_nil (outer : Flags) (seen : List Char) (negated : Bool) (f : Flags) :
    scanFlags outer seen negated f [] = .error .flags := by
  simp [scanFlags]

theorem scanFlags_cons (outer : Flags) (seen : List Char) (negated : Bool) (f : Flags) (c : Char)
    (rest : List Char) : c ≠ ':' → c ≠ ')' → scanFlags outer seen negated f (c :: rest) =
      if seen.contains c then .error .flags
      else match c with
        | '-' => scanFlags outer (c :: seen) true f rest
        | 'i' => scanFlags outer (c :: seen) negated { f with ignoreCase := !negated } rest
        | 'm' => scanFlags outer (c :: seen) negated { f with multiLine := !negated } rest
        | 's' => scanFlags outer (c :: seen) negated { f with dotAll := !negated } rest
        | 'U' => scanFlags outer (c :: seen) negated { f with swapGreed := !negated } rest
        | 'u' => scanFlags outer (c :: seen) negated { f with unicode := !negated } rest
        | 'R' => scanFlags outer (c :: seen) negated { f with crlf := !negated } rest
        | 'x' => scanFlags outer (c :: seen) negated { f with extended := !negated } rest
        | _ => .error .flags := by
  intro hcolon hparen
  rw [scanFlags.eq_def]
  split
  · next heq =>
    cases heq
    exact (hcolon rfl).elim
  · next heq =>
    cases heq
    exact (hparen rfl).elim
  · next heq =>
    cases heq
    rfl
  · next heq => cases heq

theorem alike_guardDangling {D : Flags × Bool × Bool → List Char → Prop} {n : Nat}
    {rest rest' : List Char} (seen : List Char) (a : Flags × Bool × Bool)
    (closes : Closes rest rest') (le : rest.length ≤ n) :
    Alike D n (scanFlags.guardDangling seen (.ok (a, rest)))
      (scanFlags.guardDangling seen (.ok (a, rest'))) := by
  unfold scanFlags.guardDangling
  split
  · exact .neither
  · exact .both closes le

theorem alike_scanFlags (outer : Flags) (seen : List Char) (negated : Bool) (f : Flags)
    (h : Closes s s') :
    Alike (fun _ rest => rest = ['$']) s.length (scanFlags outer seen negated f s)
      (scanFlags outer seen negated f s') := by
  induction h generalizing seen negated f with
  | closing =>
      have hclosing : scanFlags outer seen negated f closing =
          scanFlags.guardDangling seen (.ok ((f, true, !seen.isEmpty), ['$'])) := by
        simp [scanFlags, closing]
      rw [scanFlags_nil, hclosing, scanFlags.guardDangling]
      split
      · exact .neither
      · exact .late rfl
  | lost =>
      rw [scanFlags_nil]
      exact .neither
  | @cons c s s' tail _ ih =>
      have hlength : s.length ≤ (c :: s).length := Nat.le_succ _
      by_cases hcolon : c = ':'
      · subst hcolon
        rw [scanFlags, scanFlags]
        exact alike_guardDangling _ _ tail hlength
      · by_cases hparen : c = ')'
        · subst hparen
          rw [scanFlags, scanFlags]
          exact alike_guardDangling _ _ tail hlength
        · rw [scanFlags_cons _ _ _ _ _ _ hcolon hparen, scanFlags_cons _ _ _ _ _ _ hcolon hparen]
          split
          · exact .neither
          · split
            iterate 8 exact (ih _ _ _).mono hlength fun _ _ => id
            · exact .neither

/-! ### Names -/

theorem alike_scanName (h : Closes s s') : Alike Never s.length (scanName s) (scanName s') := by
  unfold scanName
  simp only [drop_length_takeWhile]
  rcases h.dropWhile_cases (p := (· ≠ '>')) (by simp [closing]) with
    ⟨hdrop, hdrop'⟩ | ⟨c, t, t', hdrop, hdrop', htail, htake⟩
  · rw [hdrop, hdrop']
    cases s.takeWhile (· ≠ '>') <;> cases s'.takeWhile (· ≠ '>') <;> exact .neither
  · have ht := length_lt_of_dropWhile hdrop
    rw [hdrop, hdrop', htake]
    cases s.takeWhile (· ≠ '>') with
    | nil => exact .neither
    | cons first name =>
        dsimp only
        split
        · exact .both htail (Nat.le_of_lt ht)
        · exact .neither

end HttpGateway.Regex
