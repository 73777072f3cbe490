import HttpGateway.Proofs.Regex.Continuation

/-!
# Classes before more text

A class is read up to its closing bracket, and there is none in the text after a pattern. So a class
is read in the wrapper of a pattern just as it is read alone.
-/

namespace HttpGateway.Regex

variable {α : Type} {f : Flags} {s s' : List Char}

/-! ### Named classes -/

/-- Reads the rest of a named class, after the sign that may negate it. -/
def scanClassName? (f : Flags) (negated : Bool) (rest : List Char) : Option (CharSet × List Char) :=
  let name := rest.takeWhile (· ≠ ':')
  match asciiClass? (String.ofList name), rest.drop name.length with
  | some s, ':' :: ']' :: after =>
    let s := fold f s
    some (if negated then s.complement else s, after)
  | _, _ => none

/-- Both readers find the same, or neither finds anything. -/
inductive AlikeFound (n : Nat) : Option (α × List Char) → Option (α × List Char) → Prop where
  | both {a : α} {rest rest' : List Char} (closes : Closes rest rest') (le : rest.length ≤ n) :
      AlikeFound n (some (a, rest)) (some (a, rest'))
  | neither : AlikeFound n none none

theorem AlikeFound.mono {n n' : Nat} {x y : Option (α × List Char)} (h : AlikeFound n x y)
    (hn : n ≤ n') : AlikeFound n' x y := by
  cases h with
  | both closes le => exact .both closes (Nat.le_trans le hn)
  | neither => exact .neither

theorem alike_scanClassName? (negated : Bool) (h : Closes s s') :
    AlikeFound s.length (scanClassName? f negated s) (scanClassName? f negated s') := by
  unfold scanClassName?
  simp only [drop_length_takeWhile]
  rcases h.dropWhile_cases (p := (· ≠ ':')) (by simp [closing]) with
    ⟨hdrop, hdrop'⟩ | ⟨c, t, t', hdrop, hdrop', htail, htake⟩
  · rw [hdrop, hdrop']
    cases asciiClass? (String.ofList (s.takeWhile (· ≠ ':'))) <;>
      cases asciiClass? (String.ofList (s'.takeWhile (· ≠ ':'))) <;> exact .neither
  · have ht := length_lt_of_dropWhile hdrop
    rw [hdrop, hdrop', htake]
    cases asciiClass? (String.ofList (s.takeWhile (· ≠ ':'))) with
    | none => exact .neither
    | some set =>
        by_cases hc : c = ':'
        · subst hc
          cases htail with
          | closing => exact .neither
          | lost => exact .neither
          | @cons d t t' htail _ =>
              by_cases hd : d = ']'
              · subst hd
                exact .both htail (by simp at ht; omega)
              · split <;> split <;> simp_all
                exact .neither
        · split <;> split <;> simp_all
          exact .neither

/-- Reads the sign that negates a class, and what `skip` drops after it. -/
def scanSign (skip : List Char → List Char) : List Char → Bool × List Char
  | '^' :: rest => (true, skip rest)
  | s => (false, s)

theorem scanSign_of_ne {c : Char} (hc : c ≠ '^') (skip : List Char → List Char)
    (rest : List Char) : scanSign skip (c :: rest) = (false, c :: rest) := by
  unfold scanSign
  split <;> simp_all

theorem alike_scanSign (skip : List Char → List Char)
    (hskip : ∀ {t t' : List Char}, Closes t t' → Closes (skip t) (skip t'))
    (hlength : ∀ t, (skip t).length ≤ t.length) (h : Closes s s') :
    AlikeTaken s.length (scanSign skip s) (scanSign skip s') := by
  cases h with
  | closing => exact ⟨rfl, .closing, Nat.le_refl _⟩
  | lost => exact ⟨rfl, .lost, Nat.le_refl _⟩
  | @cons c s s' tail ne_nil =>
      by_cases hc : c = '^'
      · subst hc
        exact ⟨rfl, hskip tail, Nat.le_succ_of_le (hlength s)⟩
      · rw [scanSign_of_ne hc, scanSign_of_ne hc]
        exact ⟨rfl, .cons tail ne_nil, Nat.le_refl _⟩

theorem scanNamedClass?_colon (f : Flags) (rest : List Char) :
    scanNamedClass? f (':' :: rest) = scanClassName? f (scanSign id rest).1 (scanSign id rest).2 :=
  rfl

theorem scanNamedClass?_of_ne {c : Char} (hc : c ≠ ':') (rest : List Char) :
    scanNamedClass? f (c :: rest) = none := by
  unfold scanNamedClass?
  split <;> simp_all

theorem alike_scanNamedClass? (h : Closes s s') :
    AlikeFound s.length (scanNamedClass? f s) (scanNamedClass? f s') := by
  cases h with
  | closing => exact .neither
  | lost => exact .neither
  | @cons c s s' tail ne_nil =>
      by_cases hc : c = ':'
      · subst hc
        obtain ⟨hnegated, hrest, hle⟩ := alike_scanSign id id (fun _ => Nat.le_refl _) tail
        rw [scanNamedClass?_colon, scanNamedClass?_colon, hnegated]
        exact (alike_scanClassName? _ hrest).mono (Nat.le_succ_of_le hle)
      · rw [scanNamedClass?_of_ne hc, scanNamedClass?_of_ne hc]
        exact .neither

/-! ### The start of a class -/

theorem scanHyphens_cons (fuel : Nat) (k : OpenClass) (rest : List Char) :
    scanHyphens f (fuel + 1) k ('-' :: rest) =
      scanHyphens f fuel (k.add [(0x2D, 0x2D)]) (skip f rest) := rfl

theorem scanHyphens_of_ne {c : Char} (hc : c ≠ '-') (fuel : Nat) (k : OpenClass)
    (rest : List Char) : scanHyphens f fuel k (c :: rest) = (k, c :: rest) := by
  unfold scanHyphens
  split <;> simp_all

theorem scanHyphens_nil (fuel : Nat) (k : OpenClass) : scanHyphens f fuel k [] = (k, []) := by
  unfold scanHyphens
  split <;> simp_all

theorem alike_scanHyphens (fuel fuel' : Nat) (k : OpenClass) (h : Closes s s')
    (hfuel : s.length ≤ fuel) (hfuel' : s'.length ≤ fuel') :
    AlikeTaken s.length (scanHyphens f fuel k s) (scanHyphens f fuel' k s') := by
  induction fuel generalizing fuel' k s s' with
  | zero =>
      obtain rfl : s = [] := List.eq_nil_of_length_eq_zero (Nat.le_zero.mp hfuel)
      cases h with
      | closing =>
          rw [closing, scanHyphens_of_ne (by decide), scanHyphens_nil]
          exact ⟨rfl, .closing, Nat.le_refl _⟩
      | lost =>
          rw [scanHyphens_nil, scanHyphens_nil]
          exact ⟨rfl, .lost, Nat.le_refl _⟩
  | succ fuel ih =>
      cases h with
      | closing =>
          rw [closing, scanHyphens_of_ne (by decide), scanHyphens_nil]
          exact ⟨rfl, .closing, Nat.le_refl _⟩
      | lost =>
          rw [scanHyphens_nil, scanHyphens_nil]
          exact ⟨rfl, .lost, Nat.le_refl _⟩
      | @cons c s s' tail ne_nil =>
          by_cases hc : c = '-'
          · subst hc
            obtain ⟨fuel', rfl⟩ : ∃ n, fuel' = n + 1 :=
              Nat.exists_eq_succ_of_ne_zero (by rintro rfl; simp at hfuel')
            have hs := length_skip_le f s
            have hs' := length_skip_le f s'
            simp only [List.length_cons] at hfuel hfuel'
            rw [scanHyphens_cons, scanHyphens_cons]
            obtain ⟨hk, hrest, hle⟩ := ih fuel' (k.add [(0x2D, 0x2D)]) (tail.skip (f := f))
              (by omega) (by omega)
            exact ⟨hk, hrest, by simp only [List.length_cons]; omega⟩
          · rw [scanHyphens_of_ne hc, scanHyphens_of_ne hc]
            exact ⟨rfl, .cons tail ne_nil, Nat.le_refl _⟩

/-- Takes a closing bracket that stands first in a class. -/
def firstBracket (f : Flags) (k : OpenClass) : Scan OpenClass
  | [] => .error .classUnclosed
  | ']' :: rest =>
    if k.items = 0 then .ok (k.add [(0x5D, 0x5D)], skip f rest) else .ok (k, ']' :: rest)
  | s => .ok (k, s)

theorem firstBracket_bracket (k : OpenClass) (rest : List Char) :
    firstBracket f k (']' :: rest) =
      if k.items = 0 then .ok (k.add [(0x5D, 0x5D)], skip f rest) else .ok (k, ']' :: rest) := rfl

theorem firstBracket_of_ne {c : Char} (hc : c ≠ ']') (k : OpenClass) (rest : List Char) :
    firstBracket f k (c :: rest) = .ok (k, c :: rest) := by
  unfold firstBracket
  split <;> simp_all

/-- Opens a class, after the sign that may negate it. -/
def openClassRest (f : Flags) (negated : Bool) : Scan OpenClass := fun s =>
  let x := scanHyphens f s.length { negated := negated } s
  firstBracket f x.1 x.2

theorem openClass_eq (f : Flags) (s : List Char) :
    openClass f s =
      openClassRest f (scanSign (skip f) (skip f s)).1 (scanSign (skip f) (skip f s)).2 := by
  unfold openClass openClassRest
  generalize skip f s = u
  split
  · next negated t heq =>
    have hsign : scanSign (skip f) u = (negated, t) := heq
    rw [hsign]
    dsimp only
    generalize scanHyphens f t.length { negated := negated } t = x
    obtain ⟨k, v⟩ := x
    cases v with
    | nil => rfl
    | cons c v =>
        by_cases hc : c = ']'
        · subst hc
          rfl
        · rw [firstBracket_of_ne hc]
          split <;> simp_all

theorem alike_firstBracket (k : OpenClass) (h : Closes s s') :
    Alike (fun _ rest => rest = closing) s.length (firstBracket f k s) (firstBracket f k s') := by
  cases h with
  | closing => exact .late rfl
  | lost => exact .neither
  | @cons c s s' tail ne_nil =>
      by_cases hc : c = ']'
      · subst hc
        rw [firstBracket_bracket, firstBracket_bracket]
        split
        · exact .both tail.skip (Nat.le_succ_of_le (length_skip_le f s))
        · exact .both (.cons tail ne_nil) (Nat.le_refl _)
      · rw [firstBracket_of_ne hc, firstBracket_of_ne hc]
        exact .both (.cons tail ne_nil) (Nat.le_refl _)

theorem alike_openClassRest (negated : Bool) (h : Closes s s') :
    Alike (fun _ rest => rest = closing) s.length (openClassRest f negated s)
      (openClassRest f negated s') := by
  obtain ⟨hk, hrest, hle⟩ := alike_scanHyphens (f := f) s.length s'.length { negated := negated } h
    (Nat.le_refl _) (Nat.le_refl _)
  unfold openClassRest
  dsimp only
  rw [hk]
  exact (alike_firstBracket _ hrest).mono hle fun _ _ => id

theorem alike_openClass (h : Closes s s') :
    Alike (fun _ rest => rest = closing) s.length (openClass f s) (openClass f s') := by
  obtain ⟨hnegated, hrest, hle⟩ := alike_scanSign (skip f) Closes.skip (length_skip_le f)
    (h.skip (f := f))
  rw [openClass_eq, openClass_eq, hnegated]
  exact (alike_openClassRest _ hrest).mono (Nat.le_trans hle (length_skip_le f s)) fun _ _ => id

/-! ### Items and ranges -/

theorem alike_admitted {D : Atom → List Char → Prop} {n : Nat} {rest rest' : List Char} (a : Atom)
    (closes : Closes rest rest') (le : rest.length ≤ n) :
    Alike D n (if a.admitted f then .ok (a, rest) else .error .notText)
      (if a.admitted f then .ok (a, rest') else .error .notText) := by
  split
  · exact .both closes le
  · exact .neither

theorem scanClassItem_slash (f : Flags) (rest : List Char) :
    scanClassItem f ('\\' :: rest) =
      (scanEscape f rest >>= fun (a, rest) =>
        if a.admitted f then .ok (a, rest) else .error .notText) := rfl

theorem scanClassItem_of_ne {c : Char} (hc : c ≠ '\\') (rest : List Char) :
    scanClassItem f (c :: rest) =
      if Atom.admitted f (.char c) then .ok (.char c, rest) else .error .notText := by
  unfold scanClassItem
  split <;> simp_all

theorem admitted_of_ascii {c : Char} (hc : c.toNat < 128) : Atom.admitted f (.char c) = true := by
  simp [Atom.admitted, hc]

theorem scanClassItem_closing (f : Flags) : scanClassItem f closing = .ok (.char ')', ['$']) := by
  rw [closing, scanClassItem_of_ne (by decide), if_pos (admitted_of_ascii (by decide))]

theorem alike_scanClassItem (h : Closes s s') :
    Alike (EscapeLeft f) (s.length - 1) (scanClassItem f s) (scanClassItem f s') := by
  cases h with
  | closing =>
      rw [scanClassItem_closing]
      exact .late (.inl rfl)
  | lost => exact .neither
  | @cons c s s' tail ne_nil =>
      by_cases hc : c = '\\'
      · subst hc
        rw [scanClassItem_slash, scanClassItem_slash]
        refine (alike_scanEscape tail).bind (fun a rest rest' closes le => ?_)
          fun e a rest hleft => ?_
        · exact alike_admitted a closes le
        · dsimp only
          split
          · exact .late hleft
          · exact .neither
      · rw [scanClassItem_of_ne hc, scanClassItem_of_ne hc]
        exact alike_admitted _ tail (Nat.le_refl _)

/-- The set of an item that is no bound of a range. -/
def itemAlone (first : Atom) : Scan CharSet := fun rest =>
  match first.members? with
  | some set => .ok (set, rest)
  | none => .error .classItem

/-- Makes a range of two items. -/
def rangeOf (first : Atom) : Atom × List Char → Except PatternError (CharSet × List Char)
  | (last, rest) =>
    match first.bound?, last.bound? with
    | some low, some high => if low ≤ high then .ok ([(low, high)], rest) else .error .classRange
    | _, _ => .error .classItem

/-- Reads what follows the first item of a range. -/
def scanRangeRest (f : Flags) (first : Atom) : Scan CharSet := fun rest =>
  match rest with
  | [] => .error .classUnclosed
  | '-' :: after => match skip f after with
    | [] => itemAlone first rest
    | c :: u =>
      if c = ']' ∨ c = '-' then itemAlone first rest
      else scanClassItem f (c :: u) >>= rangeOf first
  | _ => itemAlone first rest

theorem scanRangeRest_hyphen (first : Atom) (after : List Char) :
    scanRangeRest f first ('-' :: after) = match skip f after with
      | [] => itemAlone first ('-' :: after)
      | c :: u =>
        if c = ']' ∨ c = '-' then itemAlone first ('-' :: after)
        else scanClassItem f (c :: u) >>= rangeOf first := rfl

theorem scanRangeRest_of_ne {c : Char} (hc : c ≠ '-') (first : Atom) (rest : List Char) :
    scanRangeRest f first (c :: rest) = itemAlone first (c :: rest) := by
  unfold scanRangeRest
  split <;> simp_all

theorem scanClassRange_eq (f : Flags) (s : List Char) :
    scanClassRange f s =
      scanClassItem f s >>= fun (first, rest) => scanRangeRest f first (skip f rest) := by
  unfold scanClassRange
  congr 1
  funext x
  obtain ⟨first, rest⟩ := x
  dsimp only
  generalize skip f rest = u
  split
  · rfl
  · next after =>
    rw [scanRangeRest_hyphen]
    cases skip f after <;> rfl
  · next hnil hhyphen =>
    cases u with
    | nil => exact (hnil rfl).elim
    | cons c u =>
        rw [scanRangeRest_of_ne (by rintro rfl; exact hhyphen _ rfl)]
        rfl

/-- What the readers of a range make of a pattern. Before a hyphen at the end of the pattern there
may be a range only in the wrapper; then the class is closed in neither. -/
inductive AlikeRange (f : Flags) (n : Nat) : Except PatternError (CharSet × List Char) →
    Except PatternError (CharSet × List Char) → Prop where
  | alike {x y : Except PatternError (CharSet × List Char)}
      (h : Alike (fun _ rest => rest = closing ∨ rest = ['$']) n x y) : AlikeRange f n x y
  | hyphen {x y : Except PatternError (CharSet × List Char)} {set : CharSet} {after : List Char}
      (hx : ∀ a, x = .ok a → a = (set, '-' :: after)) (hafter : skip f after = [])
      (hy : ∀ a, y = .ok a → a.2 = ['$']) : AlikeRange f n x y

theorem AlikeRange.mono {n n' : Nat} {x y : Except PatternError (CharSet × List Char)}
    (h : AlikeRange f n x y) (hn : n ≤ n') : AlikeRange f n' x y := by
  cases h with
  | alike h => exact .alike (h.mono hn fun _ _ => id)
  | hyphen hx hafter hy => exact .hyphen hx hafter hy

theorem alike_itemAlone {D : CharSet → List Char → Prop} {n : Nat} {rest rest' : List Char}
    (first : Atom) (closes : Closes rest rest') (le : rest.length ≤ n) :
    Alike D n (itemAlone first rest) (itemAlone first rest') := by
  unfold itemAlone
  cases first.members? with
  | some set => exact .both closes le
  | none => exact .neither

theorem alike_rangeOf {D : CharSet → List Char → Prop} {n : Nat} {rest rest' : List Char}
    (first last : Atom) (closes : Closes rest rest') (le : rest.length ≤ n) :
    Alike D n (rangeOf first (last, rest)) (rangeOf first (last, rest')) := by
  unfold rangeOf
  dsimp only
  split
  · split
    · exact .both closes le
    · exact .neither
  · exact .neither

theorem rangeOf_rest {first last : Atom} {rest : List Char} {a : CharSet × List Char}
    (h : rangeOf first (last, rest) = .ok a) : a.2 = rest := by
  unfold rangeOf at h
  dsimp only at h
  split at h
  · split at h
    · cases h; rfl
    · cases h
  · cases h

theorem itemAlone_eq {first : Atom} {rest : List Char} {a : CharSet × List Char}
    (h : itemAlone first rest = .ok a) : a = ((first.members?).getD [], rest) := by
  unfold itemAlone at h
  split at h
  · next heq =>
    cases h
    rw [heq]
    rfl
  · cases h

theorem alike_rangeTo (first : Atom) (h : Closes s s') :
    Alike (fun _ rest => rest = ['$']) (s.length - 1) (scanClassItem f s >>= rangeOf first)
      (scanClassItem f s' >>= rangeOf first) := by
  refine (alike_scanClassItem h).bind (fun last rest rest' closes le => ?_)
    fun e last rest hleft => ?_
  · exact alike_rangeOf first last closes le
  · rcases hleft with rfl | ⟨⟨l, rfl⟩, -⟩
    · cases hrange : rangeOf first (last, ['$']) with
      | error e => exact .neither
      | ok a => exact .late (rangeOf_rest hrange)
    · -- an assertion bounds no range
      have hnone : rangeOf first (.look l, rest) = .error .classItem := by
        unfold rangeOf
        cases first.bound? <;> rfl
      rw [hnone]
      exact .neither

theorem alike_scanRangeRest (first : Atom) (h : Closes s s') :
    AlikeRange f s.length (scanRangeRest f first s) (scanRangeRest f first s') := by
  have hself : Closes s s' := h
  cases h with
  | closing =>
      refine .alike ?_
      rw [closing, scanRangeRest_of_ne (by decide), itemAlone]
      split
      · exact .late (.inl rfl)
      · exact .neither
  | lost => exact .alike .neither
  | @cons c s s' tail ne_nil =>
      by_cases hc : c = '-'
      · subst hc
        have hlength := length_skip_le f s
        have hskip := tail.skip (f := f)
        rw [scanRangeRest_hyphen, scanRangeRest_hyphen]
        generalize hu : skip f s = u at hskip hlength
        generalize hu' : skip f s' = u' at hskip
        cases hskip with
        | closing =>
            -- alone the hyphen stands for itself, and in the wrapper it leads to the parenthesis
            refine .hyphen (fun a ha => itemAlone_eq ha) hu fun a ha => ?_
            rw [closing] at ha
            dsimp only at ha
            rw [if_neg (by decide), show [')', '$'] = closing from rfl, scanClassItem_closing] at ha
            exact rangeOf_rest ha
        | lost => exact .alike (alike_itemAlone first hself (Nat.le_refl _))
        | @cons d u u' htail hne =>
            refine .alike ?_
            dsimp only
            split
            · exact alike_itemAlone first hself (Nat.le_refl _)
            · have hle : u.length ≤ s.length + 1 := by simp at hlength; omega
              exact (alike_rangeTo first (.cons htail hne)).mono hle fun _ _ => .inr
      · refine .alike ?_
        rw [scanRangeRest_of_ne hc, scanRangeRest_of_ne hc]
        exact alike_itemAlone first hself (Nat.le_refl _)

theorem alike_scanClassRange (h : Closes s s') :
    AlikeRange f (s.length - 1) (scanClassRange f s) (scanClassRange f s') := by
  rw [scanClassRange_eq, scanClassRange_eq]
  have hitem := alike_scanClassItem (f := f) h
  generalize scanClassItem f s = x at hitem
  generalize scanClassItem f s' = y at hitem
  cases hitem with
  | @both first rest rest' closes le =>
      exact (alike_scanRangeRest first closes.skip).mono (Nat.le_trans (length_skip_le f _) le)
  | neither => exact .alike .neither
  | @late e first rest' left =>
      have halone : ∃ c t, c ≠ '-' ∧ skip f rest' = c :: t ∧
          ∀ a, itemAlone first (c :: t) = .ok a → a.2 = ['$'] := by
        rcases left with rfl | ⟨⟨l, rfl⟩, u, rfl, -⟩
        · exact ⟨'$', [], by decide, skip_dollar f, fun a ha => by rw [itemAlone_eq ha]⟩
        · exact ⟨_, u, by decide, skip_of_solid (by decide) (by decide) u, fun a ha => by cases ha⟩
      obtain ⟨c, t, hc, hskip, halone⟩ := halone
      refine .alike ?_
      change Alike _ _ (.error e) (scanRangeRest f first (skip f rest'))
      rw [hskip, scanRangeRest_of_ne hc]
      cases hy : itemAlone first (c :: t) with
      | error e' => exact .neither
      | ok a => exact .late (.inr (halone a hy))

/-! ### The rest of a class -/

/-- The operator that is written as this character twice. -/
def classOp? : Char → Option ClassOp
  | '&' => some .inter
  | '-' => some .diff
  | '~' => some .symmDiff
  | _ => none

/-- Reads an operator of a class. -/
def scanClassOp? : List Char → Option (ClassOp × List Char)
  | c :: d :: rest => if c = d then (classOp? c).map (·, rest) else none
  | _ => none

theorem alike_scanClassOp? (h : Closes s s') :
    AlikeFound (s.length - 1) (scanClassOp? s) (scanClassOp? s') := by
  cases h with
  | closing => exact .neither
  | lost => exact .neither
  | @cons c s s' tail ne_nil =>
      cases tail with
      | closing =>
          have hnone : scanClassOp? (c :: closing) = none := by
            rw [closing, scanClassOp?]
            split
            · next hc =>
              subst hc
              rfl
            · rfl
          rw [hnone]
          exact .neither
      | lost => exact (ne_nil rfl).elim
      | @cons d s s' tail _ =>
          rw [scanClassOp?, scanClassOp?]
          split
          · cases classOp? c with
            | some op => exact .both tail (Nat.le_succ _)
            | none => exact .neither
          · exact .neither

variable {fuel : Nat} {k : OpenClass} {outer : List OpenClass} {c : Char} {rest : List Char}

theorem scanClassBody_nil (h : skip f s = []) :
    scanClassBody f fuel k outer s = .error .classUnclosed := by
  cases fuel with
  | zero => rfl
  | succ fuel => rw [scanClassBody, h]

theorem scanClassBody_open (h : skip f s = '[' :: rest) :
    scanClassBody f (fuel + 1) k outer s = match scanNamedClass? f rest with
      | some (set, after) => scanClassBody f fuel (k.add set) outer after
      | none => openClass f rest >>= fun (inner, rest) =>
          scanClassBody f fuel inner (k :: outer) rest := by
  rw [scanClassBody, h]
  rfl

theorem scanClassBody_close (h : skip f s = ']' :: rest) :
    scanClassBody f (fuel + 1) k outer s = match outer with
      | [] => .ok (k.close f, rest)
      | o :: os => scanClassBody f fuel (o.add (k.close f).1 (k.close f).2) os rest := by
  rw [scanClassBody, h]
  rfl

theorem scanClassBody_operator {op : ClassOp} (h : scanClassOp? (skip f s) = some (op, rest)) :
    scanClassBody f (fuel + 1) k outer s = scanClassBody f fuel (k.operator f op) outer rest := by
  unfold scanClassOp? at h
  split at h
  · next c d t heq =>
    split at h
    · next hcd =>
      subst hcd
      rw [scanClassBody, heq]
      unfold classOp? at h
      split at h <;> cases h <;> rfl
    · cases h
  · cases h

theorem scanClassBody_range (h : skip f s = c :: rest) (hopen : c ≠ '[') (hclose : c ≠ ']')
    (hop : scanClassOp? (c :: rest) = none) :
    scanClassBody f (fuel + 1) k outer s = scanClassRange f (c :: rest) >>= fun (set, rest) =>
      scanClassBody f fuel (k.add set) outer rest := by
  rw [scanClassBody, h]
  split <;> simp_all [scanClassOp?, classOp?]

/-- Nothing that is left closes a class. -/
def Unclosed (f : Flags) (s : List Char) : Prop :=
  ∀ fuel k outer, ∃ e, scanClassBody f fuel k outer s = .error e

theorem unclosed_of_range (h : skip f s = c :: rest) (hopen : c ≠ '[') (hclose : c ≠ ']')
    (hop : scanClassOp? (c :: rest) = none)
    (hrest : ∀ a, scanClassRange f (c :: rest) = .ok a → Unclosed f a.2) : Unclosed f s := by
  intro fuel k outer
  cases fuel with
  | zero => exact ⟨_, rfl⟩
  | succ fuel =>
      rw [scanClassBody_range h hopen hclose hop]
      cases hrange : scanClassRange f (c :: rest) with
      | error e => exact ⟨e, rfl⟩
      | ok a => exact hrest a hrange fuel _ _

theorem unclosed_dollar (f : Flags) : Unclosed f ['$'] := by
  refine unclosed_of_range (skip_dollar f) (by decide) (by decide) (by decide) fun a ha => ?_
  rw [scanClassRange_eq, scanClassItem_of_ne (by decide),
    if_pos (admitted_of_ascii (by decide))] at ha
  change scanRangeRest f _ (skip f []) = _ at ha
  rw [skip_nil] at ha
  cases ha

theorem unclosed_closing (h : skip f s = closing) : Unclosed f s := by
  refine unclosed_of_range h (by decide) (by decide) (by decide) fun a ha => ?_
  rw [show [')', '$'] = closing from rfl, scanClassRange_eq, scanClassItem_closing] at ha
  change scanRangeRest f _ (skip f ['$']) = _ at ha
  rw [skip_dollar, scanRangeRest_of_ne (by decide)] at ha
  rw [itemAlone_eq ha]
  exact unclosed_dollar f

theorem unclosed_hyphen {after : List Char} (hafter : skip f after = []) :
    Unclosed f ('-' :: after) := by
  have hskip := skip_of_solid (f := f) (c := '-') (by decide) (by decide) after
  have hop : scanClassOp? ('-' :: after) = none := by
    cases after with
    | nil => rfl
    | cons d t =>
        rw [scanClassOp?, if_neg]
        rintro rfl
        rw [skip_of_solid (by decide) (by decide)] at hafter
        cases hafter
  refine unclosed_of_range hskip (by decide) (by decide) hop fun a ha => ?_
  rw [scanClassRange_eq, scanClassItem_of_ne (by decide),
    if_pos (admitted_of_ascii (by decide))] at ha
  change scanRangeRest f _ (skip f after) = _ at ha
  rw [hafter] at ha
  cases ha

theorem Unclosed.alike {D : CharSet × Nat → List Char → Prop} {n : Nat} {e : PatternError}
    (h : Unclosed f s) (fuel : Nat) (k : OpenClass) (outer : List OpenClass) :
    Alike D n (.error e) (scanClassBody f fuel k outer s) := by
  obtain ⟨e', he'⟩ := h fuel k outer
  rw [he']
  exact .neither

/-- After one item the rest of the class is read alike. -/
def NextAlike (f : Flags) (fuel fuel' n : Nat) : Prop :=
  ∀ {s s' : List Char} (k : OpenClass) (outer : List OpenClass), Closes s s' → s.length ≤ n →
    Alike Never n (scanClassBody f fuel k outer s) (scanClassBody f fuel' k outer s')

theorem alike_afterBracket {fuel fuel' n : Nat} (next : NextAlike f fuel fuel' n) (k : OpenClass)
    (outer : List OpenClass) (h : Closes s s') (hn : s.length ≤ n) :
    Alike Never n
      (match scanNamedClass? f s with
        | some (set, after) => scanClassBody f fuel (k.add set) outer after
        | none => openClass f s >>= fun (inner, rest) =>
            scanClassBody f fuel inner (k :: outer) rest)
      (match scanNamedClass? f s' with
        | some (set, after) => scanClassBody f fuel' (k.add set) outer after
        | none => openClass f s' >>= fun (inner, rest) =>
            scanClassBody f fuel' inner (k :: outer) rest) := by
  have hnamed := alike_scanNamedClass? (f := f) h
  generalize scanNamedClass? f s = x at hnamed
  generalize scanNamedClass? f s' = y at hnamed
  cases hnamed with
  | both closes le => exact next _ _ closes (Nat.le_trans le hn)
  | neither =>
      refine (alike_openClass h).bind (fun inner rest rest' closes le => ?_)
        fun e inner rest hrest => ?_
      · exact next _ _ closes (Nat.le_trans le hn)
      · subst hrest
        exact (unclosed_closing (skip_closing f)).alike _ _ _

theorem alike_afterRange {fuel fuel' n : Nat} (next : NextAlike f fuel fuel' n) (k : OpenClass)
    (outer : List OpenClass) (h : Closes s s') (hn : s.length - 1 ≤ n) :
    Alike Never n
      (scanClassRange f s >>= fun (set, rest) => scanClassBody f fuel (k.add set) outer rest)
      (scanClassRange f s' >>= fun (set, rest) =>
        scanClassBody f fuel' (k.add set) outer rest) := by
  have hrange := alike_scanClassRange (f := f) h
  generalize scanClassRange f s = x at hrange
  generalize scanClassRange f s' = y at hrange
  cases hrange with
  | alike halike =>
      refine halike.bind (fun set rest rest' closes le => ?_) fun e set rest hrest => ?_
      · exact next _ _ closes (Nat.le_trans le hn)
      · rcases hrest with rfl | rfl
        · exact (unclosed_closing (skip_closing f)).alike _ _ _
        · exact (unclosed_dollar f).alike _ _ _
  | @hyphen set after hx hafter hy =>
      have hleft : ∃ e, (x >>= fun (set, rest) => scanClassBody f fuel (k.add set) outer rest) =
          .error e := by
        cases x with
        | error e => exact ⟨e, rfl⟩
        | ok a =>
            rw [hx a rfl]
            exact unclosed_hyphen hafter _ _ _
      obtain ⟨e, he⟩ := hleft
      rw [he]
      cases y with
      | error e' => exact .neither
      | ok a =>
          obtain ⟨set, rest⟩ := a
          obtain rfl : rest = ['$'] := hy _ rfl
          exact (unclosed_dollar f).alike _ _ _

theorem alike_scanClassBody (fuel fuel' : Nat) (k : OpenClass) (outer : List OpenClass)
    (h : Closes s s') (hfuel : s.length < fuel) (hfuel' : s' ≠ [] → s.length + 2 < fuel') :
    Alike Never s.length (scanClassBody f fuel k outer s) (scanClassBody f fuel' k outer s') := by
  -- each item takes a character of both texts, so both bounds stay large enough
  induction fuel generalizing fuel' k outer s s' with
  | zero => exact absurd hfuel (Nat.not_lt_zero _)
  | succ fuel ih =>
      have hlength := length_skip_le f s
      have hskip := h.skip (f := f)
      generalize hu : skip f s = u at hskip hlength
      generalize hu' : skip f s' = u' at hskip
      cases hskip with
      | closing =>
          -- in the wrapper the parenthesis is an item of the class, and the class is never closed
          rw [scanClassBody_nil hu]
          exact (unclosed_closing hu').alike _ _ _
      | lost =>
          rw [scanClassBody_nil hu, scanClassBody_nil hu']
          exact .neither
      | @cons c u u' tail ne_nil =>
          have hlength : u.length + 1 ≤ s.length := hlength
          have hne : s' ≠ [] := by
            rintro rfl
            rw [skip_nil] at hu'
            cases hu'
          have hfuel' := hfuel' hne
          obtain ⟨fuel', rfl⟩ : ∃ n, fuel' = n + 1 := ⟨fuel' - 1, by omega⟩
          have next : NextAlike f fuel fuel' u.length := fun k outer ht hle =>
            (ih fuel' k outer ht (by omega) fun _ => by omega).mono hle fun _ _ => id
          refine Alike.mono (n := u.length) ?_ (by omega) fun _ _ => id
          have hself := Closes.cons (c := c) tail ne_nil
          by_cases hopen : c = '['
          · subst hopen
            rw [scanClassBody_open hu, scanClassBody_open hu']
            exact alike_afterBracket next k outer tail (Nat.le_refl _)
          by_cases hclose : c = ']'
          · subst hclose
            rw [scanClassBody_close hu, scanClassBody_close hu']
            cases outer with
            | nil => exact .both tail (Nat.le_refl _)
            | cons o os => exact next _ _ tail (Nat.le_refl _)
          have hop := alike_scanClassOp? hself
          generalize hx : scanClassOp? (c :: u) = x at hop
          generalize hy : scanClassOp? (c :: u') = y at hop
          cases hop with
          | both closes le =>
              rw [scanClassBody_operator (hu ▸ hx), scanClassBody_operator (hu' ▸ hy)]
              exact next _ _ closes le
          | neither =>
              rw [scanClassBody_range hu hopen hclose hx, scanClassBody_range hu' hopen hclose hy]
              exact alike_afterRange next k outer hself (Nat.le_refl _)

/-- A class is read in the wrapper just as it is read alone. -/
theorem alike_scanClass (h : Closes s s') :
    Alike Never s.length (scanClass f s) (scanClass f s') := by
  refine (alike_openClass h).bind (fun k rest rest' closes le => ?_) fun e k rest hrest => ?_
  · refine (alike_scanClassBody _ _ k [] closes (Nat.lt_succ_self _) fun hne => ?_).mono le
      fun _ _ => id
    rcases closes.eq_or with rfl | ⟨-, rfl⟩
    · simp [closing]
    · exact (hne rfl).elim
  · subst hrest
    exact (unclosed_closing (skip_closing f)).alike _ _ _

end HttpGateway.Regex
