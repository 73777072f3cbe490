import HttpGateway.Proofs.Dictionary
import HttpGateway.Proofs.Json.Numbers

/-!
# Values written to texts and read again

The text of a value is read as the value, up to its fractional numbers, each of which is read as what
its own text comes to. The fields of an object may be written in any order; read they are in the order
of their keys. Texts are read only as far as arrays and objects do not nest too deeply; the text of a
value that is too deep is not read at all.
-/

namespace HttpGateway.Json

section Strings

variable {c : Char} {fuel : Nat} {acc rest : List Char}

theorem hexDigit?_digitChar : ∀ d < 16, Text.hexDigit? (Nat.digitChar d) = some d := by
  decide

/-- A character without a name of its own is written with its number. -/
theorem numbered_quoted (h : c.toNat < 32) :
    numbered ('0' :: '0' :: Nat.digitChar (c.toNat / 16) :: Nat.digitChar (c.toNat % 16) :: rest) =
      some (c, rest) := by
  have hword : hexWord ('0' :: '0' :: Nat.digitChar (c.toNat / 16) ::
      Nat.digitChar (c.toNat % 16) :: rest) = some (c.toNat, rest) := by
    have hzero : Text.hexDigit? '0' = some 0 := by decide
    simp only [hexWord, List.take_succ_cons, List.take_zero, List.mapM_cons, List.mapM_nil, hzero,
      hexDigit?_digitChar _ (show c.toNat / 16 < 16 by omega),
      hexDigit?_digitChar _ (show c.toNat % 16 < 16 by omega), List.drop_succ_cons, List.drop_zero]
    have hvalue : ((0 * 16 + 0) * 16 + c.toNat / 16) * 16 + c.toNat % 16 = c.toNat := by omega
    exact congrArg (fun n => some (n, rest)) hvalue
  simp only [numbered, hword]
  rw [if_pos (.inl (by omega)), Char.ofNat_toNat]

/-- A quoted character is read as the character. -/
theorem readString_quoteChar :
    readString (fuel + 1) acc (quoteChar c ++ rest) = readString fuel (c :: acc) rest := by
  unfold quoteChar
  split
  next h => subst h; rfl
  split
  next h => subst h; rfl
  split
  next h => subst h; rfl
  split
  next h => subst h; rfl
  split
  next h => subst h; rfl
  split
  next h => subst h; rfl
  split
  next h => subst h; rfl
  split
  next h =>
    simp only [List.cons_append, List.nil_append]
    rw [readString, if_neg (by decide), if_pos rfl]
    simp only [escaped, numbered_quoted h]
  next hquote hback _ _ _ _ _ h =>
    rw [List.singleton_append, readString, if_neg hquote, if_neg hback, if_neg h]

theorem readString_quoted {cs : List Char} (h : cs.length < fuel) :
    readString fuel acc (cs.flatMap quoteChar ++ '"' :: rest) =
      some (String.ofList (acc.reverse ++ cs), rest) := by
  induction cs generalizing fuel acc with
  | nil =>
      obtain ⟨fuel, rfl⟩ := Nat.exists_eq_add_of_lt h
      simp [readString]
  | cons c cs ih =>
      obtain ⟨fuel, rfl⟩ : ∃ n, fuel = n + 1 := ⟨fuel - 1, by omega⟩
      rw [List.flatMap_cons, List.append_assoc, readString_quoteChar, ih (Nat.lt_of_succ_lt_succ h)]
      simp

theorem length_le_quoted (cs : List Char) : cs.length ≤ (cs.flatMap quoteChar).length := by
  induction cs with
  | nil => exact Nat.zero_le _
  | cons c cs ih =>
      have hone : 1 ≤ (quoteChar c).length := by
        unfold quoteChar
        repeat' split
        all_goals exact Nat.le_add_left ..
      rw [List.flatMap_cons, List.length_append, List.length_cons]
      omega

/-- What stands behind the opening quote of a text. -/
theorem readString_quote (s : String) (rest : List Char) :
    ∃ more, (quote s).toList ++ rest = '"' :: more ∧
      readString (more.length + 1) [] more = some (s, rest) := by
  refine ⟨s.toList.flatMap quoteChar ++ '"' :: rest, ?_, ?_⟩
  · simp [quote]
  · have hlength := length_le_quoted s.toList
    rw [readString_quoted (by rw [List.length_append]; omega), List.reverse_nil, List.nil_append,
      String.ofList_toList]

end Strings

section Shapes

variable {c : Char} {room fuel : Nat} {s rest : List Char}

/-- A value starts here: the text does not begin with a blank or a closing bracket. -/
def Starts (s : List Char) : Prop :=
  ∃ c rest, s = c :: rest ∧ c ≠ ' ' ∧ c ≠ '\t' ∧ c ≠ '\n' ∧ c ≠ '\r' ∧ c ≠ ']'

theorem Starts.append (h : Starts s) (rest : List Char) : Starts (s ++ rest) := by
  obtain ⟨c, more, rfl, hc⟩ := h
  exact ⟨c, more ++ rest, rfl, hc⟩

theorem starts_digit (h : c.isDigit = true) : Starts (c :: rest) := by
  refine ⟨c, rest, rfl, ?_⟩
  refine ⟨?_, ?_, ?_, ?_, ?_⟩ <;> rintro rfl <;> exact absurd h (by decide)

theorem skipBlanks_of_starts (h : Starts s) : skipBlanks s = s := by
  obtain ⟨c, rest, rfl, hspace, htab, hline, hreturn, -⟩ := h
  rw [skipBlanks, List.dropWhile_cons_of_neg]
  simp [hspace, htab, hline, hreturn]

theorem readValue_minus : readValue room (fuel + 1) ('-' :: s) = readNumber true s := rfl

theorem readValue_digit (h : c.isDigit = true) :
    readValue room (fuel + 1) (c :: s) = readNumber false (c :: s) := by
  simp only [readValue, skipBlanks_of_starts (starts_digit h)]
  split
  case h_8 => rfl
  all_goals next heq => cases heq; exact absurd h (by decide)

theorem readValue_quote (t : String) :
    readValue room (fuel + 1) ((quote t).toList ++ rest) = some (.str t, rest) := by
  obtain ⟨more, htext, hread⟩ := readString_quote t rest
  have hvalue : readValue room (fuel + 1) ('"' :: more) =
      (readString (more.length + 1) [] more).map fun p => (.str p.1, p.2) := rfl
  rw [htext, hvalue, hread]
  rfl

theorem readValue_items (h : Starts s) : readValue (room + 1) (fuel + 1) ('[' :: s) =
    (readItems room fuel s).map fun (js, rest) => (.arr js, rest) := by
  obtain ⟨c, more, rfl, hspace, htab, hline, hreturn, hclose⟩ := h
  simp only [readValue, skipBlanks_of_starts ⟨c, more, rfl, hspace, htab, hline, hreturn, hclose⟩,
    skipBlanks_of_starts (s := '[' :: c :: more) ⟨'[', c :: more, rfl, by decide⟩]
  split
  next heq =>
    cases heq
    exact absurd rfl hclose
  next => rfl

theorem readValue_members (t : String) :
    readValue (room + 1) (fuel + 1) ('\x7b' :: ((quote t).toList ++ rest)) =
      (readMembers room fuel ((quote t).toList ++ rest)).map fun (fs, rest) => (.object fs, rest) := by
  obtain ⟨more, htext, -⟩ := readString_quote t rest
  rw [htext]
  rfl

variable {j : Json} {more : List Char}

theorem readItems_none (h : readValue room fuel s = none) : readItems room (fuel + 1) s = none := by
  simp only [readItems, h]
  rfl

theorem readItems_last (h : readValue room fuel s = some (j, ']' :: rest)) :
    readItems room (fuel + 1) s = some ([j], rest) := by
  simp only [readItems, h]
  rfl

theorem readItems_more (h : readValue room fuel s = some (j, ',' :: more)) :
    readItems room (fuel + 1) s =
      (readItems room fuel more).map fun (js, rest) => (j :: js, rest) := by
  simp only [readItems, h]
  change (readItems room fuel more).bind _ = _
  cases readItems room fuel more <;> rfl

theorem readMembers_none (key : String) (h : readValue room fuel s = none) :
    readMembers room (fuel + 1) ((quote key).toList ++ ':' :: s) = none := by
  obtain ⟨more, htext, hread⟩ := readString_quote key (':' :: s)
  rw [htext, readMembers, show skipBlanks ('"' :: more) = '"' :: more from rfl]
  simp only [hread]
  change (readValue room fuel s).bind _ = none
  rw [h]
  rfl

theorem readMembers_last (key : String) (h : readValue room fuel s = some (j, '\x7d' :: rest)) :
    readMembers room (fuel + 1) ((quote key).toList ++ ':' :: s) = some ([(key, j)], rest) := by
  obtain ⟨more, htext, hread⟩ := readString_quote key (':' :: s)
  rw [htext, readMembers, show skipBlanks ('"' :: more) = '"' :: more from rfl]
  simp only [hread]
  change (readValue room fuel s).bind _ = _
  rw [h]
  rfl

theorem readMembers_more (key : String) (h : readValue room fuel s = some (j, ',' :: more)) :
    readMembers room (fuel + 1) ((quote key).toList ++ ':' :: s) =
      (readMembers room fuel more).map fun (fs, rest) => ((key, j) :: fs, rest) := by
  obtain ⟨text, htext, hread⟩ := readString_quote key (':' :: s)
  rw [htext, readMembers, show skipBlanks ('"' :: text) = '"' :: text from rfl]
  simp only [hread]
  change (readValue room fuel s).bind _ = _
  rw [h]
  change (readMembers room fuel more).bind _ = _
  cases readMembers room fuel more <;> rfl

/-- Without room no array or object is read. -/
theorem readValue_full (h : c = '[' ∨ c = '\x7b') : readValue 0 (fuel + 1) (c :: s) = none := by
  rcases h with rfl | rfl <;> rfl

end Shapes

section Values

mutual

/-- How many arrays and objects lie in one another. -/
def depth : Json → Nat
  | .arr items => itemsDepth items + 1
  | .obj fields => fieldsDepth fields + 1
  | _ => 0

/-- How many arrays and objects lie in one another in the items of an array. -/
def itemsDepth : List Json → Nat
  | [] => 0
  | j :: rest => max j.depth (itemsDepth rest)

/-- How many arrays and objects lie in one another in the fields of an object. -/
def fieldsDepth : List (String × Json) → Nat
  | [] => 0
  | (_, j) :: rest => max j.depth (fieldsDepth rest)

end

mutual

/-- The numbers in the value are such as texts hold: whole ones fit a word, and fractional ones are
finite. -/
def HasText : Json → Prop
  | .int n => -9223372036854775808 ≤ n ∧ n ≤ largestWord
  | .float x => x.isFinite = true
  | .arr items => ItemsHaveText items
  | .obj fields => FieldsHaveText fields
  | _ => True

/-- The numbers in the items of an array are such as texts hold. -/
def ItemsHaveText : List Json → Prop
  | [] => True
  | j :: rest => j.HasText ∧ ItemsHaveText rest

/-- The numbers in the fields of an object are such as texts hold. -/
def FieldsHaveText : List (String × Json) → Prop
  | [] => True
  | (_, j) :: rest => j.HasText ∧ FieldsHaveText rest

end

mutual

/-- The fields of each object in the value stand in the order of their keys. -/
def IsOrdered : Json → Prop
  | .arr items => ItemsOrdered items
  | .obj fields => Dictionary.Ordered fields ∧ FieldsOrdered fields
  | _ => True

/-- The items of an array are in order. -/
def ItemsOrdered : List Json → Prop
  | [] => True
  | j :: rest => j.IsOrdered ∧ ItemsOrdered rest

/-- The fields of an object are in order, each by itself. -/
def FieldsOrdered : List (String × Json) → Prop
  | [] => True
  | (_, j) :: rest => j.IsOrdered ∧ FieldsOrdered rest

end

mutual

/-- What the text of a value is read as. -/
def reread : Json → Json
  | .float x => .float (rereadFloat x)
  | .arr items => .arr (rereadItems items)
  | .obj fields => object (rereadFields fields)
  | j => j

/-- What the items of an array are read as. -/
def rereadItems : List Json → List Json
  | [] => []
  | j :: rest => j.reread :: rereadItems rest

/-- What the fields of an object are read as. -/
def rereadFields : List (String × Json) → List (String × Json)
  | [] => []
  | (key, j) :: rest => (key, j.reread) :: rereadFields rest

end

/-- The text of a fractional number. -/
theorem readValue_floatText {x : Float} {room fuel : Nat} {rest : List Char} (hx : x.isFinite = true)
    (hrest : Ends rest) : readValue room (fuel + 1) ((floatText x).toList ++ rest) =
      some (.float (rereadFloat x), rest) := by
  obtain ⟨hpos, hmost, hfinite⟩ := decimalOf_spec hx
  have hread (negative) := readNumber_write negative hpos hmost hfinite hrest
  rw [floatText_eq hx, rereadFloat]
  generalize floatNotation.write (decimalOf x).2 = text at hread ⊢
  cases (decimalOf x).1 with
  | true =>
      rw [if_pos rfl, if_pos rfl, String.toList_append]
      exact readValue_minus.trans (hread true)
  | false =>
      rw [if_neg Bool.false_ne_true, if_neg Bool.false_ne_true, String.empty_append]
      obtain ⟨c, more, htext, hdigit⟩ := exists_digit_of_readNumber (hread false)
      rw [htext, readValue_digit hdigit, ← htext]
      exact hread false

theorem readValue_signedDecimal {n : Int} {room fuel : Nat} {rest : List Char}
    (hn : -9223372036854775808 ≤ n ∧ n ≤ largestWord) (hrest : Ends rest) :
    readValue room (fuel + 1) ((Text.signedDecimal n).toList ++ rest) = some (.int n, rest) := by
  have hword : (largestWord : Int) = 18446744073709551615 := rfl
  by_cases hneg : n < 0
  · have htext : (Text.signedDecimal n).toList = '-' :: Nat.toDigits 10 n.natAbs := by
      simp [Text.signedDecimal, Text.decimal, hneg]
    have hread := readNumber_toDigits true (n := n.natAbs) hrest (by omega) (fun _ => by omega)
    have hvalue : -(n.natAbs : Int) = n := by omega
    rw [if_pos rfl, hvalue] at hread
    rw [htext]
    exact readValue_minus.trans hread
  · have htext : (Text.signedDecimal n).toList = Nat.toDigits 10 n.natAbs := by
      simp [Text.signedDecimal, Text.decimal, hneg]
    have hread := readNumber_toDigits false (n := n.natAbs) hrest (by omega)
      (fun h => absurd h Bool.false_ne_true)
    have hvalue : (n.natAbs : Int) = n := by omega
    rw [if_neg Bool.false_ne_true, hvalue] at hread
    obtain ⟨c, more, hdigits, hdigit⟩ := exists_digit_of_readNumber hread
    rw [htext, hdigits, readValue_digit hdigit, ← hdigits]
    exact hread

theorem starts_of_readNumber {negative : Bool} {s : List Char} {found : Json × List Char}
    (h : readNumber negative s = some found) : Starts s := by
  obtain ⟨c, more, rfl, hdigit⟩ := exists_digit_of_readNumber h
  exact starts_digit hdigit

theorem starts_minus (s : List Char) : Starts ('-' :: s) := ⟨'-', s, rfl, by decide⟩

theorem starts_floatText {x : Float} (hx : x.isFinite = true) : Starts (floatText x).toList := by
  obtain ⟨hpos, hmost, hfinite⟩ := decimalOf_spec hx
  have hread := readNumber_write false hpos hmost hfinite ends_nil
  rw [List.append_nil] at hread
  rw [floatText_eq hx, String.toList_append]
  split
  next => exact starts_minus _
  next => exact starts_of_readNumber hread

theorem starts_signedDecimal (n : Int) : Starts (Text.signedDecimal n).toList := by
  obtain ⟨c, ds, hds⟩ := List.exists_cons_of_ne_nil (Nat.toDigits_ne_nil (n := n.natAbs) (b := 10))
  have hdigit : c.isDigit = true := isDigit_of_mem_toDigits c (hds ▸ List.mem_cons_self)
  simp only [Text.signedDecimal, Text.decimal]
  split
  next =>
    rw [String.toList_append]
    exact starts_minus _
  next =>
    rw [String.toList_ofList, hds]
    exact starts_digit hdigit

theorem render_float {x : Float} (hx : x.isFinite = true) : render (.float x) = floatText x :=
  if_pos hx

theorem starts_render {j : Json} (h : j.HasText) : Starts j.render.toList := by
  cases j with
  | null => exact ⟨_, _, rfl, by decide⟩
  | bool b => cases b <;> exact ⟨_, _, rfl, by decide⟩
  | int n => exact starts_signedDecimal n
  | float x =>
      rw [render_float h]
      exact starts_floatText h
  | str s =>
      rw [render, quote, String.toList_ofList]
      exact ⟨'"', _, rfl, by decide⟩
  | arr items =>
      rw [render, String.toList_append, String.toList_append]
      exact ⟨'[', _, rfl, by decide⟩
  | obj fields =>
      rw [render, String.toList_append, String.toList_append]
      exact ⟨'\x7b', _, rfl, by decide⟩

theorem toList_renderItems (j j' : Json) (items : List Json) :
    (renderItems (j :: j' :: items)).toList =
      j.render.toList ++ ',' :: (renderItems (j' :: items)).toList := by
  simp [renderItems]

theorem toList_renderFields_one (key : String) (j : Json) :
    (renderFields [(key, j)]).toList = (quote key).toList ++ ':' :: j.render.toList := by
  simp [renderFields]

theorem toList_renderFields (key : String) (j : Json) (e : String × Json)
    (fields : List (String × Json)) : (renderFields ((key, j) :: e :: fields)).toList =
      (quote key).toList ++ ':' :: (j.render.toList ++ ',' :: (renderFields (e :: fields)).toList) := by
  simp [renderFields]

theorem starts_renderItems {j : Json} (h : j.HasText) (items : List Json) :
    Starts (renderItems (j :: items)).toList := by
  cases items with
  | nil => exact starts_render h
  | cons j' items =>
      rw [toList_renderItems]
      exact (starts_render h).append _

theorem exists_renderFields (e : String × Json) (fields : List (String × Json)) :
    ∃ rest, (renderFields (e :: fields)).toList = (quote e.1).toList ++ rest := by
  cases fields with
  | nil => exact ⟨_, toList_renderFields_one e.1 e.2⟩
  | cons e' fields => exact ⟨_, toList_renderFields e.1 e.2 e' fields⟩

theorem toList_render_arr (items : List Json) (rest : List Char) :
    (render (.arr items)).toList ++ rest = '[' :: ((renderItems items).toList ++ ']' :: rest) := by
  simp [render]

theorem toList_render_obj (fields : List (String × Json)) (rest : List Char) :
    (render (.obj fields)).toList ++ rest =
      '\x7b' :: ((renderFields fields).toList ++ '\x7d' :: rest) := by
  simp [render]

theorem length_render_arr (items : List Json) :
    (render (.arr items)).toList.length = (renderItems items).toList.length + 2 := by
  simp [render]

theorem length_render_obj (fields : List (String × Json)) :
    (render (.obj fields)).toList.length = (renderFields fields).toList.length + 2 := by
  simp [render]

mutual

/-- The text of a value, with anything that may follow it, is read as the value is read again, if
there is room for it. -/
theorem readValue_render (j : Json) (room fuel : Nat) (rest : List Char) (hj : j.HasText)
    (hfuel : j.render.toList.length < fuel) (hrest : Ends rest) :
    readValue room fuel (j.render.toList ++ rest) =
      if j.depth ≤ room then some (j.reread, rest) else none := by
  obtain ⟨fuel, rfl⟩ : ∃ n, fuel = n + 1 := ⟨fuel - 1, by omega⟩
  cases j with
  | null => exact (if_pos (Nat.zero_le room)).symm
  | bool b =>
      refine Eq.trans ?_ (if_pos (Nat.zero_le room)).symm
      cases b <;> rfl
  | int n => exact (readValue_signedDecimal hj hrest).trans (if_pos (Nat.zero_le room)).symm
  | float x =>
      rw [render_float hj]
      exact (readValue_floatText hj hrest).trans (if_pos (Nat.zero_le room)).symm
  | str s => exact (readValue_quote s).trans (if_pos (Nat.zero_le room)).symm
  | arr items =>
      rw [toList_render_arr]
      have hlength := length_render_arr items
      cases room with
      | zero => exact readValue_full (.inl rfl)
      | succ room =>
          cases items with
          | nil => exact (if_pos (Nat.le_add_left 1 room)).symm
          | cons j more =>
              have hstarts : Starts ((renderItems (j :: more)).toList ++ ']' :: rest) :=
                (starts_renderItems hj.1 more).append _
              have hread := readItems_render (j :: more) room fuel rest (List.cons_ne_nil j more) hj
                (by omega)
              rw [readValue_items hstarts, hread]
              simp only [depth, reread, Nat.add_le_add_iff_right]
              split <;> rfl
  | obj fields =>
      rw [toList_render_obj]
      have hlength := length_render_obj fields
      cases room with
      | zero => exact readValue_full (.inr rfl)
      | succ room =>
          cases fields with
          | nil => exact (if_pos (Nat.le_add_left 1 room)).symm
          | cons e more =>
              obtain ⟨text, htext⟩ := exists_renderFields e more
              have hread := readMembers_render (e :: more) room fuel rest (List.cons_ne_nil e more) hj
                (by omega)
              rw [htext, List.append_assoc] at hread ⊢
              rw [readValue_members, hread]
              simp only [depth, reread, Nat.add_le_add_iff_right]
              split <;> rfl

/-- The text of the items of an array. -/
theorem readItems_render (items : List Json) (room fuel : Nat) (rest : List Char) (hne : items ≠ [])
    (hitems : ItemsHaveText items) (hfuel : (renderItems items).toList.length + 1 < fuel) :
    readItems room fuel ((renderItems items).toList ++ ']' :: rest) =
      if itemsDepth items ≤ room then some (rereadItems items, rest) else none := by
  obtain ⟨fuel, rfl⟩ : ∃ n, fuel = n + 1 := ⟨fuel - 1, by omega⟩
  cases items with
  | nil => exact absurd rfl hne
  | cons j items =>
      obtain ⟨hj, hitems⟩ := hitems
      cases items with
      | nil =>
          rw [renderItems] at hfuel ⊢
          have hread := readValue_render j room fuel (']' :: rest) hj (by omega)
            (ends_cons (.inr (.inl rfl)))
          by_cases hdepth : j.depth ≤ room
          · rw [if_pos hdepth] at hread
            rw [readItems_last hread]
            exact (if_pos (max_le hdepth (Nat.zero_le room))).symm
          · rw [if_neg hdepth] at hread
            rw [readItems_none hread]
            exact (if_neg fun h => hdepth (le_of_max_le_left h)).symm
      | cons j' items =>
          rw [toList_renderItems] at hfuel ⊢
          rw [List.length_append, List.length_cons] at hfuel
          rw [List.append_assoc, List.cons_append]
          have hread := readValue_render j room fuel
            (',' :: ((renderItems (j' :: items)).toList ++ ']' :: rest)) hj (by omega)
            (ends_cons (.inl rfl))
          by_cases hdepth : j.depth ≤ room
          · have hmore := readItems_render (j' :: items) room fuel rest (List.cons_ne_nil j' items)
              hitems (by omega)
            rw [if_pos hdepth] at hread
            rw [readItems_more hread, hmore]
            simp only [itemsDepth, max_le_iff, hdepth, true_and]
            split <;> rfl
          · rw [if_neg hdepth] at hread
            rw [readItems_none hread]
            exact (if_neg fun h => hdepth (le_of_max_le_left h)).symm

/-- The text of the fields of an object. -/
theorem readMembers_render (fields : List (String × Json)) (room fuel : Nat) (rest : List Char)
    (hne : fields ≠ []) (hfields : FieldsHaveText fields)
    (hfuel : (renderFields fields).toList.length + 1 < fuel) :
    readMembers room fuel ((renderFields fields).toList ++ '\x7d' :: rest) =
      if fieldsDepth fields ≤ room then some (rereadFields fields, rest) else none := by
  obtain ⟨fuel, rfl⟩ : ∃ n, fuel = n + 1 := ⟨fuel - 1, by omega⟩
  cases fields with
  | nil => exact absurd rfl hne
  | cons e fields =>
      obtain ⟨key, j⟩ := e
      obtain ⟨hj, hfields⟩ := hfields
      cases fields with
      | nil =>
          rw [toList_renderFields_one] at hfuel ⊢
          rw [List.length_append, List.length_cons] at hfuel
          rw [List.append_assoc, List.cons_append]
          have hread := readValue_render j room fuel ('\x7d' :: rest) hj (by omega)
            (ends_cons (.inr (.inr rfl)))
          by_cases hdepth : j.depth ≤ room
          · rw [if_pos hdepth] at hread
            rw [readMembers_last key hread]
            exact (if_pos (max_le hdepth (Nat.zero_le room))).symm
          · rw [if_neg hdepth] at hread
            rw [readMembers_none key hread]
            exact (if_neg fun h => hdepth (le_of_max_le_left h)).symm
      | cons e' fields =>
          rw [toList_renderFields] at hfuel ⊢
          rw [List.length_append, List.length_cons, List.length_append, List.length_cons] at hfuel
          rw [List.append_assoc, List.cons_append, List.append_assoc, List.cons_append]
          have hread := readValue_render j room fuel
            (',' :: ((renderFields (e' :: fields)).toList ++ '\x7d' :: rest)) hj (by omega)
            (ends_cons (.inl rfl))
          by_cases hdepth : j.depth ≤ room
          · have hmore := readMembers_render (e' :: fields) room fuel rest (List.cons_ne_nil e' fields)
              hfields (by omega)
            rw [if_pos hdepth] at hread
            rw [readMembers_more key hread, hmore]
            simp only [fieldsDepth, max_le_iff, hdepth, true_and]
            split <;> rfl
          · rw [if_neg hdepth] at hread
            rw [readMembers_none key hread]
            exact (if_neg fun h => hdepth (le_of_max_le_left h)).symm

end

end Values

/-- The text of a value is read as the value is read again, unless arrays and objects lie in one
another too deeply. -/
theorem parse?_render {j : Json} (h : j.HasText) :
    parse? j.render = if j.depth ≤ deepest then some j.reread else none := by
  have hread := readValue_render j deepest (2 * j.render.toList.length + 2) [] h (by omega) ends_nil
  rw [List.append_nil] at hread
  by_cases hdepth : j.depth ≤ deepest
  · rw [if_pos hdepth] at hread ⊢
    simp only [parse?, hread]
    exact if_pos rfl
  · rw [if_neg hdepth] at hread ⊢
    simp only [parse?, hread]

section Members

theorem fieldsHaveText_iff {fields : List (String × Json)} :
    FieldsHaveText fields ↔ ∀ e ∈ fields, e.2.HasText := by
  induction fields with
  | nil => simp [FieldsHaveText]
  | cons e rest ih => simp [FieldsHaveText, ih]

theorem itemsHaveText_iff {items : List Json} : ItemsHaveText items ↔ ∀ j ∈ items, j.HasText := by
  induction items with
  | nil => simp [ItemsHaveText]
  | cons j rest ih => simp [ItemsHaveText, ih]

theorem fieldsOrdered_iff {fields : List (String × Json)} :
    FieldsOrdered fields ↔ ∀ e ∈ fields, e.2.IsOrdered := by
  induction fields with
  | nil => simp [FieldsOrdered]
  | cons e rest ih => simp [FieldsOrdered, ih]

theorem itemsOrdered_iff {items : List Json} : ItemsOrdered items ↔ ∀ j ∈ items, j.IsOrdered := by
  induction items with
  | nil => simp [ItemsOrdered]
  | cons j rest ih => simp [ItemsOrdered, ih]

theorem fieldsDepth_le_iff {fields : List (String × Json)} {n : Nat} :
    fieldsDepth fields ≤ n ↔ ∀ e ∈ fields, e.2.depth ≤ n := by
  induction fields with
  | nil => simp [fieldsDepth]
  | cons e rest ih => simp [fieldsDepth, ih]

theorem itemsDepth_le_iff {items : List Json} {n : Nat} :
    itemsDepth items ≤ n ↔ ∀ j ∈ items, j.depth ≤ n := by
  induction items with
  | nil => simp [itemsDepth]
  | cons j rest ih => simp [itemsDepth, ih]

theorem rereadItems_eq_map (items : List Json) : rereadItems items = items.map reread := by
  induction items with
  | nil => rfl
  | cons j rest ih => rw [rereadItems, ih, List.map_cons]

theorem rereadFields_eq_map (fields : List (String × Json)) :
    rereadFields fields = fields.map fun e => (e.1, e.2.reread) := by
  induction fields with
  | nil => rfl
  | cons e rest ih => rw [rereadFields, ih, List.map_cons]

theorem ordered_rereadFields {fields : List (String × Json)} (h : Dictionary.Ordered fields) :
    Dictionary.Ordered (rereadFields fields) :=
  rereadFields_eq_map fields ▸ List.pairwise_map.mpr h

/-- Fields in order are read as fields in order. -/
theorem reread_obj {fields : List (String × Json)} (h : Dictionary.Ordered fields) :
    reread (.obj fields) = .obj (rereadFields fields) :=
  congrArg obj (Dictionary.ofList_eq_self (ordered_rereadFields h))

end Members

section Rereading

mutual

/-- Every fractional number in the value is the number that its own text is read as. -/
def IsKept : Json → Prop
  | .float x => rereadFloat x = x
  | .arr items => ItemsKept items
  | .obj fields => FieldsKept fields
  | _ => True

/-- Every fractional number in the items of an array is the number that its text is read as. -/
def ItemsKept : List Json → Prop
  | [] => True
  | j :: rest => j.IsKept ∧ ItemsKept rest

/-- Every fractional number in the fields of an object is the number that its text is read as. -/
def FieldsKept : List (String × Json) → Prop
  | [] => True
  | (_, j) :: rest => j.IsKept ∧ FieldsKept rest

end

mutual

/-- A value is read as itself just if each of its fractional numbers is. -/
theorem reread_eq_self_iff {j : Json} (h : j.IsOrdered) : j.reread = j ↔ j.IsKept := by
  cases j with
  | float x => exact ⟨Json.float.inj, congrArg Json.float⟩
  | arr items => exact Json.arr.injEq .. ▸ rereadItems_eq_self_iff h
  | obj fields =>
      rw [reread_obj h.1]
      exact Json.obj.injEq .. ▸ rereadFields_eq_self_iff h.2
  | null => exact iff_of_true rfl trivial
  | bool _ => exact iff_of_true rfl trivial
  | int _ => exact iff_of_true rfl trivial
  | str _ => exact iff_of_true rfl trivial

theorem rereadItems_eq_self_iff {items : List Json} (h : ItemsOrdered items) :
    rereadItems items = items ↔ ItemsKept items := by
  cases items with
  | nil => exact iff_of_true rfl trivial
  | cons j rest =>
      rw [rereadItems, List.cons.injEq]
      exact and_congr (reread_eq_self_iff h.1) (rereadItems_eq_self_iff h.2)

theorem rereadFields_eq_self_iff {fields : List (String × Json)} (h : FieldsOrdered fields) :
    rereadFields fields = fields ↔ FieldsKept fields := by
  cases fields with
  | nil => exact iff_of_true rfl trivial
  | cons e rest =>
      obtain ⟨key, j⟩ := e
      rw [rereadFields, List.cons.injEq, Prod.mk.injEq, eq_self_iff_true, true_and]
      exact and_congr (reread_eq_self_iff h.1) (rereadFields_eq_self_iff h.2)

end

theorem fieldsKept_iff {fields : List (String × Json)} :
    FieldsKept fields ↔ ∀ e ∈ fields, e.2.IsKept := by
  induction fields with
  | nil => simp [FieldsKept]
  | cons e rest ih => simp [FieldsKept, ih]

mutual

/-- What has been read from a text has a text again. -/
theorem hasText_reread {j : Json} (h : j.HasText) : j.reread.HasText := by
  cases j with
  | float x => exact isFinite_rereadFloat h
  | arr items => exact itemsHaveText_reread h
  | obj fields =>
      have hfields := fieldsHaveText_iff.mp (fieldsHaveText_reread h)
      exact fieldsHaveText_iff.mpr fun e he => hfields e (Dictionary.mem_of_mem_ofList he)
  | int n => exact h
  | _ => trivial

theorem itemsHaveText_reread {items : List Json} (h : ItemsHaveText items) :
    ItemsHaveText (rereadItems items) := by
  cases items with
  | nil => trivial
  | cons j rest => exact ⟨hasText_reread h.1, itemsHaveText_reread h.2⟩

theorem fieldsHaveText_reread {fields : List (String × Json)} (h : FieldsHaveText fields) :
    FieldsHaveText (rereadFields fields) := by
  cases fields with
  | nil => trivial
  | cons e rest => exact ⟨hasText_reread h.1, fieldsHaveText_reread h.2⟩

end

end Rereading

section Found

/-- A value that texts hold, with at most so many arrays and objects in one another. -/
structure Fits (room : Nat) (j : Json) : Prop where
  hasText : j.HasText
  isOrdered : j.IsOrdered
  depth_le : j.depth ≤ room

theorem fits_iff {room : Nat} {j : Json} :
    Fits room j ↔ j.HasText ∧ j.IsOrdered ∧ j.depth ≤ room :=
  ⟨fun h => ⟨h.hasText, h.isOrdered, h.depth_le⟩, fun ⟨htext, hordered, hdepth⟩ =>
    ⟨htext, hordered, hdepth⟩⟩

theorem fits_arr {items : List Json} {room : Nat} :
    Fits (room + 1) (.arr items) ↔ ∀ j ∈ items, Fits room j := by
  simp only [fits_iff, HasText, IsOrdered, depth, Nat.add_le_add_iff_right, itemsHaveText_iff,
    itemsOrdered_iff, itemsDepth_le_iff, forall_and]

theorem fits_obj {fields : List (String × Json)} {room : Nat} :
    Fits (room + 1) (.obj fields) ↔ Dictionary.Ordered fields ∧ ∀ e ∈ fields, Fits room e.2 := by
  simp only [fits_iff, HasText, IsOrdered, depth, Nat.add_le_add_iff_right, fieldsHaveText_iff,
    fieldsOrdered_iff, fieldsDepth_le_iff, forall_and]
  tauto

theorem fits_object {fields : List (String × Json)} {room : Nat} (h : ∀ e ∈ fields, Fits room e.2) :
    Fits (room + 1) (object fields) :=
  fits_obj.mpr ⟨Dictionary.ordered_ofList fields, fun e he => h e (Dictionary.mem_of_mem_ofList he)⟩

theorem addDigits_le {n taken : Nat} {ds : List Char} (h : n ≤ largestWord) :
    (addDigits n taken ds).1 ≤ largestWord := by
  induction ds generalizing n taken with
  | nil => exact h
  | cons c ds ih =>
      simp only [addDigits]
      split
      next => exact h
      next hnext => exact ih (not_lt.mp hnext)

theorem fits_of_fractional {negative : Bool} {n : Nat} {exponent : Int} {j : Json} (room : Nat)
    (h : fractional negative n exponent = some j) : Fits room j := by
  simp only [fractional] at h
  split at h
  next => cases h
  next hinf =>
    have hfinite := Text.isFinite_scaledFloat_of_not_isInf (Bool.not_eq_true _ ▸ hinf)
    cases h
    refine ⟨?_, trivial, Nat.zero_le room⟩
    cases negative with
    | true => exact Doubles.isFinite_neg hfinite
    | false => exact hfinite

theorem fits_of_numberOf {negative : Bool} {whole : List Char} {parts : Option (List Char)}
    {power : Option Int} {j : Json} (room : Nat) (h : numberOf negative whole parts power = some j) :
    Fits room j := by
  have hword : (addDigits 0 0 whole).1 ≤ largestWord := addDigits_le (Nat.zero_le largestWord)
  have hlargest : (largestWord : Int) = 18446744073709551615 := rfl
  simp only [numberOf] at h
  split at h
  next =>
    split at h
    next =>
      cases h
      exact ⟨⟨by omega, by omega⟩, trivial, Nat.zero_le room⟩
    next =>
      split at h
      next hfits =>
        cases h
        exact ⟨⟨by omega, by omega⟩, trivial, Nat.zero_le room⟩
      next => exact fits_of_fractional room h
  next => exact fits_of_fractional room h

theorem fits_of_readNumber {negative : Bool} {s rest : List Char} {j : Json} (room : Nat)
    (h : readNumber negative s = some (j, rest)) : Fits room j := by
  simp only [readNumber] at h
  split at h
  next => cases h
  next =>
    split at h
    next => cases h
    next =>
      split at h
      next => cases h
      next =>
        obtain ⟨j', hnumber, hpair⟩ := Option.map_eq_some_iff.mp h
        cases hpair
        exact fits_of_numberOf room hnumber

variable {room fuel : Nat} {s rest : List Char}

theorem fits_of_readValue {j : Json}
    (hitems : ∀ room s js rest, readItems room fuel s = some (js, rest) → ∀ j ∈ js, Fits room j)
    (hmembers : ∀ room s fs rest, readMembers room fuel s = some (fs, rest) →
      ∀ e ∈ fs, Fits room e.2)
    (h : readValue room (fuel + 1) s = some (j, rest)) : Fits room j := by
  simp only [readValue] at h
  split at h
  · cases h
    exact ⟨trivial, trivial, Nat.zero_le room⟩
  · cases h
    exact ⟨trivial, trivial, Nat.zero_le room⟩
  · cases h
    exact ⟨trivial, trivial, Nat.zero_le room⟩
  · obtain ⟨found, -, hpair⟩ := Option.map_eq_some_iff.mp h
    cases hpair
    exact ⟨trivial, trivial, Nat.zero_le room⟩
  · cases room with
    | zero => cases h
    | succ room =>
        simp only at h
        split at h
        next =>
          cases h
          exact fits_arr.mpr (List.forall_mem_nil _)
        next =>
          obtain ⟨found, hfound, hpair⟩ := Option.map_eq_some_iff.mp h
          cases hpair
          exact fits_arr.mpr (hitems room _ _ _ hfound)
  · cases room with
    | zero => cases h
    | succ room =>
        simp only at h
        split at h
        next =>
          cases h
          exact fits_object (List.forall_mem_nil _)
        next =>
          obtain ⟨found, hfound, hpair⟩ := Option.map_eq_some_iff.mp h
          cases hpair
          exact fits_object (hmembers room _ _ _ hfound)
  · exact fits_of_readNumber room h
  · exact fits_of_readNumber room h

theorem fits_of_readItems {js : List Json}
    (hvalue : ∀ s j rest, readValue room fuel s = some (j, rest) → Fits room j)
    (hitems : ∀ s js rest, readItems room fuel s = some (js, rest) → ∀ j ∈ js, Fits room j)
    (h : readItems room (fuel + 1) s = some (js, rest)) : ∀ j ∈ js, Fits room j := by
  simp only [readItems] at h
  obtain ⟨⟨j, more⟩, hj, h⟩ := Option.bind_eq_some_iff.mp h
  have hfits := hvalue _ _ _ hj
  simp only at h
  split at h
  next =>
    obtain ⟨⟨js', _⟩, hjs, hpair⟩ := Option.bind_eq_some_iff.mp h
    cases hpair
    exact List.forall_mem_cons.mpr ⟨hfits, hitems _ _ _ hjs⟩
  next =>
    cases h
    exact List.forall_mem_singleton.mpr hfits
  next => cases h

theorem fits_of_readMembers {fs : List (String × Json)}
    (hvalue : ∀ s j rest, readValue room fuel s = some (j, rest) → Fits room j)
    (hmembers : ∀ s fs rest, readMembers room fuel s = some (fs, rest) → ∀ e ∈ fs, Fits room e.2)
    (h : readMembers room (fuel + 1) s = some (fs, rest)) : ∀ e ∈ fs, Fits room e.2 := by
  simp only [readMembers] at h
  split at h
  next =>
    obtain ⟨⟨name, more⟩, -, h⟩ := Option.bind_eq_some_iff.mp h
    simp only at h
    split at h
    next =>
      obtain ⟨⟨j, more⟩, hj, h⟩ := Option.bind_eq_some_iff.mp h
      have hfits := hvalue _ _ _ hj
      simp only at h
      split at h
      next =>
        obtain ⟨⟨fs', _⟩, hfs, hpair⟩ := Option.bind_eq_some_iff.mp h
        cases hpair
        exact List.forall_mem_cons.mpr ⟨hfits, hmembers _ _ _ hfs⟩
      next =>
        cases h
        exact List.forall_mem_singleton.mpr hfits
      next => cases h
    next => cases h
  next => cases h

/-- What is read from a text is a value that texts hold, and no deeper than there is room. -/
theorem fits_of_read (fuel : Nat) :
    (∀ room s j rest, readValue room fuel s = some (j, rest) → Fits room j) ∧
      (∀ room s js rest, readItems room fuel s = some (js, rest) → ∀ j ∈ js, Fits room j) ∧
      ∀ room s fs rest, readMembers room fuel s = some (fs, rest) → ∀ e ∈ fs, Fits room e.2 := by
  induction fuel with
  | zero =>
      refine ⟨fun _ _ _ _ h => ?_, fun _ _ _ _ h => ?_, fun _ _ _ _ h => ?_⟩
      · simp only [readValue] at h
        cases h
      · simp only [readItems] at h
        cases h
      · simp only [readMembers] at h
        cases h
  | succ fuel ih =>
      obtain ⟨hvalue, hitems, hmembers⟩ := ih
      exact ⟨fun _ _ _ _ => fits_of_readValue hitems hmembers,
        fun room _ _ _ => fits_of_readItems (hvalue room) (hitems room),
        fun room _ _ _ => fits_of_readMembers (hvalue room) (hmembers room)⟩

/-- What is read from a text is a value that texts hold. -/
theorem fits_of_parse? {text : String} {j : Json} (h : parse? text = some j) : Fits deepest j := by
  simp only [parse?] at h
  split at h
  next found hfound =>
    split at h
    next =>
      cases h
      exact (fits_of_read _).1 _ _ _ _ hfound
    next => cases h
  next => cases h

end Found

end HttpGateway.Json
