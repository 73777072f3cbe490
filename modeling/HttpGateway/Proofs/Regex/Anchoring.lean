import HttpGateway.Proofs.Regex.Search
import HttpGateway.Proofs.Regex.Wrapping

/-!
# Anchored patterns

A pattern is anchored by writing it into a group between assertions for the start and the end of a
text. If no parenthesis of the pattern closes that group, the anchored pattern matches a text just
if the pattern by itself matches all of it.
-/

namespace HttpGateway.Regex

/-! ### Matches of whole texts -/

variable {e : Expr} {p q : Position}

/-- The expression matches a text from its start to its end. -/
def Expr.Spans (e : Expr) (text : List Char) : Prop :=
  e.Matches (Position.start text) (Position.finish text)

/-- The expression between assertions for the start and the end of the text. -/
def Expr.anchored (e : Expr) : Expr := .cat (.look .start) (.cat e (.look .finish))

theorem spans_single_iff {c : Char} {text : List Char} :
    (Expr.set (CharSet.single c)).Spans text ↔ text = [c] := by
  have hcontains (d : Char) : (CharSet.single c).contains d = true ↔ d = c := by
    rw [← Char.toNat_inj]
    simp only [CharSet.contains, CharSet.holds, CharSet.single, List.any_cons, List.any_nil,
      Bool.or_false, Bool.and_eq_true, decide_eq_true_iff]
    omega
  constructor
  · rintro ⟨d, hd, htext, -⟩
    rw [(hcontains d).mp hd] at htext
    exact htext
  · rintro rfl
    exact ⟨c, (hcontains c).mpr rfl, rfl, rfl⟩

theorem text_eq_of_times {R : Position → Position → Prop} {n : Nat}
    (hR : ∀ p q, R p q → q.text = p.text) (h : Times R n p q) : q.text = p.text := by
  induction h with
  | zero => rfl
  | succ first _ ih => rw [ih, hR _ _ first]

theorem text_eq_of_matches (h : e.Matches p q) : q.text = p.text := by
  induction e generalizing p q with
  | empty => exact congrArg Position.text h.symm
  | set chars =>
      obtain ⟨c, -, hahead, hbehind⟩ := h
      simp [Position.text, hahead, hbehind]
  | look l => exact congrArg Position.text h.2.symm
  | capture index body ih => exact ih h
  | cat a b iha ihb =>
      obtain ⟨middle, ha, hb⟩ := h
      rw [ihb hb, iha ha]
  | alt a b iha ihb => exact h.elim iha ihb
  | «repeat» low high greedy body ih =>
      obtain ⟨n, -, -, htimes⟩ := h
      exact text_eq_of_times (fun _ _ => ih) htimes

theorem start_holds_iff : Look.start.holds p.place = true ↔ p = Position.start p.text := by
  obtain ⟨_ | _, ahead⟩ := p <;> simp [Look.holds, Position.place, Position.start, Position.text]

theorem finish_holds_iff : Look.finish.holds p.place = true ↔ p = Position.finish p.text := by
  obtain ⟨behind, _ | _⟩ := p <;> simp [Look.holds, Position.place, Position.finish, Position.text]

theorem anchored_spans_iff (e : Expr) (text : List Char) :
    e.anchored.Spans text ↔ e.Spans text := by
  constructor
  · rintro ⟨_, ⟨-, rfl⟩, _, he, -, rfl⟩
    exact he
  · intro he
    exact ⟨.start text, ⟨rfl, rfl⟩, .finish text, he, rfl, rfl⟩

/-- An anchored expression that matches anywhere in a text spans it. -/
theorem anchored_matches_iff (e : Expr) (text : List Char) :
    (∃ p q : Position, p.text = text ∧ e.anchored.Matches p q) ↔ e.anchored.Spans text := by
  constructor
  · rintro ⟨p, q, htext, _, ⟨hstart, rfl⟩, middle, he, hfinish, rfl⟩
    have hmiddle := text_eq_of_matches he
    rw [start_holds_iff.mp hstart, finish_holds_iff.mp hfinish, hmiddle, htext] at he
    exact (anchored_spans_iff e text).mpr he
  · intro h
    exact ⟨.start text, .finish text, rfl, h⟩

/-! ### Reading anchored patterns -/

/-- Reads a pattern up to its end, where groups may still be open. -/
def Reading.ofText (text : String) : Except PatternError Reading :=
  Reading.loop (text.toList.length + 1) {} text.toList

/-- The pattern between the assertions for the start and the end of a text. -/
def anchor (text : String) : String := "^(?:" ++ text ++ ")$"

/-- The group that the pattern stands in. -/
def anchorGroup : OpenGroup := ⟨none, {}, [.part ⟨.look .start, 0⟩], []⟩

/-- The reading of an anchored pattern, when its group has been closed. -/
def Reading.grouped (r : Reading) : Reading :=
  { r with
    flags := {}
    pieces := [.part ⟨r.body.expr, r.body.depth + 1⟩, .part ⟨.look .start, 0⟩]
    alternatives := []
    stack := [] }

/-- The reading of an anchored pattern, when its last character has been read. -/
def Reading.anchored (r : Reading) : Reading := r.grouped.add (.look .finish)

namespace Reading

variable {r : Reading} {text : String}

theorem anchored_body (r : Reading) :
    r.anchored.body = ⟨r.body.expr.anchored, r.body.depth + 2⟩ := by
  simp [body, anchored, grouped, add, sequence, depthOf, Piece.part?, Expr.catAll, Expr.altAll,
    Expr.anchored]

theorem toList_anchor (text : String) :
    (anchor text).toList = '^' :: '(' :: '?' :: ':' :: (text.toList ++ closing) := by
  simp [anchor, closing]

/-- The reading of a pattern in other groups, with the end of the wrapper after it. -/
def within (text : String) (gs : List OpenGroup) : Except PatternError Reading :=
  loop (text.toList.length + 5) (({} : Reading).under gs) (text.toList ++ closing)

theorem ofText_anchor (text : String) : ofText (anchor text) = within text [anchorGroup] := by
  have hlength : (anchor text).toList.length + 1 = text.toList.length + 5 + 1 + 1 := by
    simp [toList_anchor, closing]
  rw [ofText, hlength, toList_anchor]
  calc
    _ = loop (text.toList.length + 5 + 1) (({} : Reading).add (.look .start))
        ('(' :: '?' :: ':' :: (text.toList ++ closing)) := loop_step _ rfl rfl
    _ = _ := loop_step _ rfl rfl

theorem wrapped_ofText (text : String) : Wrapped (ofText text) (within text) :=
  wrapped_loop _ _ {} (.append _) (by omega) fun _ => by omega

theorem ofText_closing (text : String) : ofText (text ++ ")$") = within text [] := by
  have htext : (text ++ ")$").toList = text.toList ++ closing := by simp [closing]
  rw [ofText, htext]
  exact loop_of_lt {} (by simp) (by simp [closing])

theorem loop_closing_of_nil {fuel : Nat} (h : r.stack = []) (hfuel : 2 ≤ fuel) :
    loop fuel (r.under [anchorGroup]) closing = .ok r.anchored := by
  obtain ⟨fuel, rfl⟩ : ∃ n, fuel = n + 2 := ⟨fuel - 2, by omega⟩
  have hclose : (r.under [anchorGroup]).step ')' ['$'] = .ok (r.grouped, ['$']) := by
    unfold step closeGroup
    rw [under_stack, h]
    rfl
  calc
    _ = loop (fuel + 1) r.grouped ['$'] := loop_step (fuel + 1) (skip_closing _) hclose
    _ = loop fuel r.anchored [] := loop_step fuel rfl rfl
    _ = .ok r.anchored := loop_end fuel rfl

theorem loop_closing_of_ne {fuel : Nat} {g : OpenGroup} (h : r.stack ≠ []) (hfuel : 2 ≤ fuel) :
    ∃ r', loop fuel (r.under [g]) closing = .ok r' ∧ r'.stack ≠ [] := by
  obtain ⟨fuel, rfl⟩ : ∃ n, fuel = n + 2 := ⟨fuel - 2, by omega⟩
  obtain ⟨inner, outer, hstack⟩ := List.exists_cons_of_ne_nil h
  have hclose : ∃ r', (r.under [g]).step ')' ['$'] = .ok (r', ['$']) ∧ r'.stack = outer ++ [g] := by
    unfold step closeGroup
    rw [under_stack, hstack]
    exact ⟨_, rfl, rfl⟩
  obtain ⟨closed, hclose, houter⟩ := hclose
  obtain ⟨r', hdollar, hend⟩ := loop_dollar (fuel + 1) closed
  refine ⟨r', (loop_step (fuel + 1) (skip_closing _) hclose).trans hdollar, ?_⟩
  rw [hend, houter]
  simp

theorem loop_closing_alone {fuel : Nat} (h : r.stack = []) (hfuel : 2 ≤ fuel) :
    loop fuel r closing = .error .groupUnopened := by
  obtain ⟨fuel, rfl⟩ : ∃ n, fuel = n + 2 := ⟨fuel - 2, by omega⟩
  rw [loop_item (r := r) (fuel + 1) (skip_closing _), step_unopened h]
  rfl

end Reading

open Reading

variable {text : String} {x : Expr × Nat × List (String × Nat)} {r : Reading}

/-- What a pattern that has been read to its end makes. -/
def Reading.finished (r : Reading) : Except PatternError (Expr × Nat × List (String × Nat)) :=
  if !r.stack.isEmpty then .error .groupUnclosed
  else if deepest < r.body.depth then .error .nesting
  else .ok (r.body.expr, r.captures, r.names)

theorem finished_ok_iff : r.finished = .ok x ↔
    r.stack = [] ∧ r.body.depth ≤ deepest ∧ x = (r.body.expr, r.captures, r.names) := by
  unfold finished
  split
  · next hopen =>
    have hstack : r.stack ≠ [] := by simpa using hopen
    simp [hstack]
  · next hclosed =>
    have hstack : r.stack = [] := by simpa using hclosed
    split
    · next hdeep => simp [Nat.not_le.mpr hdeep]
    · next hdeep => simp [hstack, Nat.not_lt.mp hdeep, eq_comm]

theorem readPattern_eq (text : String) : readPattern text = ofText text >>= finished := rfl

theorem readPattern_ok_iff :
    readPattern text = .ok x ↔ ∃ r, ofText text = .ok r ∧ r.finished = .ok x := by
  rw [readPattern_eq]
  cases ofText text with
  | error e => simp [bind, Except.bind]
  | ok r => simp [bind, Except.bind]

theorem readPattern_unopened_iff :
    readPattern text = .error .groupUnopened ↔ ofText text = .error .groupUnopened := by
  rw [readPattern_eq]
  cases ofText text with
  | error e => simp [bind, Except.bind]
  | ok r =>
      have hfinished : r.finished ≠ .error .groupUnopened := by
        unfold finished
        split
        · simp
        · split <;> simp
      simpa [bind, Except.bind] using hfinished

/-- The pattern is complete by itself, nests at least two levels less than a pattern may, and does
not hide what follows it in a comment. -/
structure Anchorable (text : String) (r : Reading) : Prop where
  read : ofText text = .ok r
  closed : r.stack = []
  depth : r.body.depth + 2 ≤ deepest
  visible : readPattern (text ++ ")$") = .error .groupUnopened

theorem Anchorable.readPattern (h : Anchorable text r) :
    readPattern text = .ok (r.body.expr, r.captures, r.names) :=
  readPattern_ok_iff.mpr ⟨r, h.read, finished_ok_iff.mpr
    ⟨h.closed, Nat.le_trans (Nat.le_add_right _ 2) h.depth, rfl⟩⟩

/-- Either the pattern is read whole, and the end of its wrapper after it, or it cannot be anchored
and the wrapper stays open. -/
theorem anchor_cases (hbalanced : readPattern text ≠ .error .groupUnopened) :
    (∃ r, ofText text = .ok r ∧ r.stack = [] ∧
        readPattern (text ++ ")$") = .error .groupUnopened ∧
        ofText (anchor text) = .ok r.anchored) ∨
      (∀ r, ¬ Anchorable text r) ∧ ∀ r, ofText (anchor text) = .ok r → r.stack ≠ [] := by
  have hwrapped := wrapped_ofText text
  have hvisible : readPattern (text ++ ")$") = .error .groupUnopened ↔
      within text [] = .error .groupUnopened := by
    rw [readPattern_unopened_iff, ofText_closing]
  rw [ofText_anchor]
  generalize hread : ofText text = y at hwrapped
  generalize within text = w at hwrapped hvisible
  cases hwrapped with
  | unopened => exact absurd (readPattern_unopened_iff.mpr hread) hbalanced
  | @ended r fuel hfuel =>
      by_cases hstack : r.stack = []
      · have hends := hvisible.mpr
          (loop_closing_alone (r := r.under []) (by simp [hstack]) hfuel)
        exact .inl ⟨r, rfl, hstack, hends, loop_closing_of_nil hstack hfuel⟩
      · obtain ⟨r', hloop, hopen⟩ := loop_closing_of_ne (g := anchorGroup) hstack hfuel
        refine .inr ⟨fun r'' h => ?_, fun r'' h => ?_⟩
        · obtain rfl : r = r'' := Except.ok.inj (hread.symm.trans h.read)
          exact hstack h.closed
        · obtain rfl : r' = r'' := Except.ok.inj (hloop.symm.trans h)
          exact hopen
  | @lost r =>
      refine .inr ⟨fun r' h => ?_, fun r' h => ?_⟩
      · cases hvisible.mp h.visible
      · cases h
        simp
  | refused suffix =>
      refine .inr ⟨fun r h => ?_, fun r h => (suffix _ _ h).ne_nil (List.cons_ne_nil _ _)⟩
      cases hread.symm.trans h.read

/-- A pattern without unmatched parentheses can be read in its wrapper just if it is complete by
itself and leaves room for the wrapper. -/
theorem readPattern_anchor_iff (hbalanced : readPattern text ≠ .error .groupUnopened) :
    readPattern (anchor text) = .ok x ↔
      ∃ r, Anchorable text r ∧ x = (r.body.expr.anchored, r.captures, r.names) := by
  rw [readPattern_ok_iff]
  rcases anchor_cases hbalanced with ⟨r, hread, hstack, hvisible, hanchor⟩ | ⟨hnot, hopen⟩
  · constructor
    · rintro ⟨r', hr', hfinished⟩
      obtain rfl : r.anchored = r' := Except.ok.inj (hanchor.symm.trans hr')
      obtain ⟨-, hdepth, rfl⟩ := finished_ok_iff.mp hfinished
      rw [anchored_body] at hdepth ⊢
      exact ⟨r, ⟨hread, hstack, hdepth, hvisible⟩, rfl⟩
    · rintro ⟨r', h, rfl⟩
      obtain rfl : r = r' := Except.ok.inj (hread.symm.trans h.read)
      refine ⟨r.anchored, hanchor, finished_ok_iff.mpr ⟨rfl, ?_, ?_⟩⟩
      · rw [anchored_body]
        exact h.depth
      · rw [anchored_body]
        rfl
  · constructor
    · rintro ⟨r, hr, hfinished⟩
      exact absurd (finished_ok_iff.mp hfinished).1 (hopen r hr)
    · rintro ⟨r, h, -⟩
      exact absurd h (hnot r)

/-! ### Compiled patterns -/

theorem anchored_weight (e : Expr) : e.anchored.weight = e.weight + 2 * stateWeight := by
  simp only [Expr.anchored, Expr.weight]
  omega

theorem compile_ok_iff {c : Regex} : compile text = .ok c ↔ ∃ x, readPattern text = .ok x ∧
    x.1.weight ≤ largestPattern ∧ c = ⟨text, Program.ofExpr x.1, x.2.1, x.2.2⟩ := by
  unfold compile
  cases readPattern text with
  | error e => simp [bind, Except.bind]
  | ok x =>
      change (if largestPattern < x.1.weight then _ else _) = _ ↔ _
      split
      · next hlarge =>
        constructor
        · intro h
          cases h
        · rintro ⟨_, ⟨⟩, hweight, -⟩
          exact absurd hweight (Nat.not_le.mpr hlarge)
      · next hlarge => simp [Nat.not_lt.mp hlarge, eq_comm]

/-- A pattern without unmatched parentheses is accepted in its wrapper just if it is complete by
itself and leaves room for the wrapper. -/
theorem compile_anchor_iff (hbalanced : readPattern text ≠ .error .groupUnopened) :
    (∃ c, compile (anchor text) = .ok c) ↔
      ∃ r, Anchorable text r ∧ r.body.expr.weight + 2 * stateWeight ≤ largestPattern := by
  constructor
  · rintro ⟨c, hcompile⟩
    obtain ⟨x, hread, hweight, -⟩ := compile_ok_iff.mp hcompile
    obtain ⟨r, hanchorable, rfl⟩ := (readPattern_anchor_iff hbalanced).mp hread
    rw [anchored_weight] at hweight
    exact ⟨r, hanchorable, hweight⟩
  · rintro ⟨r, hanchorable, hweight⟩
    have hread := (readPattern_anchor_iff hbalanced).mpr ⟨r, hanchorable, rfl⟩
    rw [← anchored_weight] at hweight
    exact ⟨_, compile_ok_iff.mpr ⟨_, hread, hweight, rfl⟩⟩

/-- A compiled pattern in its wrapper matches only texts that it spans, and these are the texts that
the pattern by itself spans. -/
theorem isMatch_anchor_iff {c : Regex} (hbalanced : readPattern text ≠ .error .groupUnopened)
    (hcompile : compile (anchor text) = .ok c) :
    ∃ e whole captures names, readPattern text = .ok (e, captures, names) ∧
      readPattern (anchor text) = .ok (whole, captures, names) ∧
      ∀ value : String, (c.isMatch value = true ↔ whole.Spans value.toList) ∧
        (whole.Spans value.toList ↔ e.Spans value.toList) := by
  obtain ⟨x, hread, -, -⟩ := compile_ok_iff.mp hcompile
  obtain ⟨r, hanchorable, rfl⟩ := (readPattern_anchor_iff hbalanced).mp hread
  refine ⟨_, _, _, _, hanchorable.readPattern, hread, fun value => ⟨?_, anchored_spans_iff _ _⟩⟩
  rw [isMatch_iff hread hcompile, anchored_matches_iff]

end HttpGateway.Regex
