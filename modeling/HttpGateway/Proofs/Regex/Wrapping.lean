import HttpGateway.Regex.Parser
import HttpGateway.Proofs.Regex.ClassContinuation

/-!
# Patterns in a wrapper

A pattern within a group of another is read item by item as it is read alone, with the open groups
around it as a frame that only an unmatched parenthesis can reach.
-/

namespace HttpGateway.Regex

variable {f : Flags} {s s' : List Char}

/-! ### The start of a group -/

/-- Takes the next character if it is one of some, and goes on in one of two ways. -/
def whenNext {α : Type} (p : Char → Bool) (taken left : List Char → α) : List Char → α
  | c :: rest => if p c then taken rest else left (c :: rest)
  | [] => left []

theorem whenNext_left {α : Type} {p : Char → Bool} {taken left : List Char → α}
    (h : ∀ c t, s = c :: t → p c = false) : whenNext p taken left s = left s := by
  cases s with
  | nil => rfl
  | cons c t => rw [whenNext, h c t rfl, if_neg Bool.false_ne_true]

theorem alike_whenNext {α : Type} {R : α → α → Prop} {p : Char → Bool} {taken left : List Char → α}
    {n : Nat} (hp : p ')' = false) (h : Closes s s') (hn : s.length ≤ n)
    (htaken : ∀ t t', Closes t t' → t' ≠ [] → t.length < n → R (taken t) (taken t'))
    (hleft : R (left s) (left s')) : R (whenNext p taken left s) (whenNext p taken left s') := by
  cases h with
  | closing => simpa [whenNext, closing, hp] using hleft
  | lost => exact hleft
  | cons tail ne_nil =>
      rw [whenNext, whenNext]
      split
      · exact htaken _ _ tail ne_nil hn
      · exact hleft

/-- What an opening parenthesis starts. -/
inductive Opening where
  | lookAround
  | named
  | flagged
  | plain
  deriving DecidableEq

/-- The sign of an assertion about what stands around. -/
def isLookSign (c : Char) : Bool := c = '=' || c = '!'

/-- Reads what tells the kinds of groups apart. -/
def scanOpening : List Char → Opening × List Char :=
  whenNext (· = '?')
    (whenNext isLookSign (.lookAround, ·)
      (whenNext (· = '<')
        (whenNext isLookSign (.lookAround, ·) (.named, ·))
        (whenNext (· = 'P')
          (whenNext (· = '<') (.named, ·) fun rest => (.flagged, 'P' :: rest))
          (.flagged, ·))))
    (.plain, ·)

theorem alike_scanOpening (h : Closes s s') :
    AlikeTaken s.length (scanOpening s) (scanOpening s') := by
  have keep (o : Opening) {n : Nat} {t t' : List Char} (ht : Closes t t') (hn : t.length ≤ n) :
      AlikeTaken n (o, t) (o, t') := ⟨rfl, ht, hn⟩
  refine alike_whenNext (by decide) h (Nat.le_refl _) (fun t t' ht _ hlt => ?_)
    (keep .plain h (Nat.le_refl _))
  have hn := Nat.le_of_lt hlt
  refine alike_whenNext (by decide) ht hn
    (fun u u' hu _ hlt => keep .lookAround hu (Nat.le_of_lt hlt)) ?_
  refine alike_whenNext (by decide) ht hn (fun u u' hu _ hlt => ?_) ?_
  · exact alike_whenNext (by decide) hu (Nat.le_of_lt hlt)
      (fun v v' hv _ hlt => keep .lookAround hv (Nat.le_of_lt hlt))
      (keep .named hu (Nat.le_of_lt hlt))
  refine alike_whenNext (by decide) ht hn (fun u u' hu hne hlt => ?_) (keep .flagged ht hn)
  exact alike_whenNext (by decide) hu (Nat.le_of_lt hlt)
    (fun v v' hv _ hlt => keep .named hv (Nat.le_of_lt hlt)) (keep .flagged (.cons hu hne) hlt)

theorem scanOpening_flagged {rest : List Char}
    (hlook : ∀ c t, rest = c :: t → isLookSign c = false) (hname : ∀ t, rest ≠ '<' :: t)
    (hcapital : ∀ t, rest ≠ 'P' :: '<' :: t) : scanOpening ('?' :: rest) = (.flagged, rest) := by
  have hbehind : ∀ c t, rest = c :: t → decide (c = '<') = false := fun c t h =>
    decide_eq_false fun hc => hname t (hc ▸ h)
  change whenNext isLookSign _ _ rest = _
  rw [whenNext_left hlook, whenNext_left hbehind]
  by_cases hP : ∃ t, rest = 'P' :: t
  · obtain ⟨t, rfl⟩ := hP
    rw [whenNext, if_pos (by decide)]
    exact whenNext_left fun c u h => decide_eq_false fun hc => hcapital u (by rw [h, hc])
  · exact whenNext_left fun c t h => decide_eq_false fun hc => hP ⟨t, hc ▸ h⟩

namespace Reading

/-- Reads the rest of a group's start. -/
def opened (r : Reading) : Opening × List Char → Except PatternError (Reading × List Char)
  | (.lookAround, _) => .error .lookAround
  | (.named, rest) => do
    let (name, rest) ← scanName rest
    .ok (← r.openCapture (some name), rest)
  | (.flagged, rest) => do
    let ((inner, closed, given), rest) ← scanFlags r.flags [] false r.flags rest
    if closed then
      if given then .ok ({ r with flags := inner, pieces := .setting :: r.pieces }, rest)
      else .error .operandMissing
    else .ok (r.openGroup none inner, rest)
  | (.plain, rest) => do .ok (← r.openCapture none, rest)

theorem afterOpen_eq (r : Reading) (s : List Char) :
    r.afterOpen s = r.opened (scanOpening (skip r.flags s)) := by
  unfold afterOpen
  generalize skip r.flags s = u
  split
  iterate 5 rfl
  · next rest hbehind hbehind' =>
    change _ = r.opened (whenNext isLookSign (.lookAround, ·) (.named, ·) rest)
    rw [whenNext_left]
    · rfl
    · rintro c t rfl
      simpa [isLookSign] using ⟨fun h => hbehind t (h ▸ rfl), fun h => hbehind' t (h ▸ rfl)⟩
  · next rest hlook hlook' hbehind hbehind' hcapital hname =>
    rw [scanOpening_flagged]
    · rfl
    · rintro c t rfl
      simpa [isLookSign] using ⟨fun h => hlook t (h ▸ rfl), fun h => hlook' t (h ▸ rfl)⟩
    · rintro t rfl
      exact hname t rfl
    · rintro t rfl
      exact hcapital t rfl
  · next hmark =>
    have hplain : scanOpening u = (.plain, u) :=
      whenNext_left fun c t h => decide_eq_false fun hc => hmark t (hc ▸ h)
    rw [hplain]
    rfl

/-! ### Open groups around a pattern -/

/-- The reading with more open groups around it. -/
def under (r : Reading) (gs : List OpenGroup) : Reading := { r with stack := r.stack ++ gs }

variable (r : Reading) (gs : List OpenGroup)

@[simp] theorem under_flags : (r.under gs).flags = r.flags := rfl
@[simp] theorem under_stack : (r.under gs).stack = r.stack ++ gs := rfl

theorem under_openCapture (name : Option String) :
    (r.under gs).openCapture name = (r.openCapture name).map (·.under gs) := by
  cases name with
  | none => rfl
  | some n =>
      change (if (r.names.lookup n).isSome then _ else _) = _
      unfold openCapture
      dsimp only
      split <;> rfl

theorem under_closeGroup (h : r.stack ≠ []) :
    (r.under gs).closeGroup = r.closeGroup.map (·.under gs) := by
  unfold closeGroup under
  cases hstack : r.stack with
  | nil => exact (h hstack).elim
  | cons g rest => rfl

theorem under_repeatLast (low : Nat) (high : Option Nat) (greedy : Bool) :
    (r.under gs).repeatLast low high greedy = (r.repeatLast low high greedy).map (·.under gs) := by
  obtain ⟨flags, captures, names, pieces, alternatives, stack⟩ := r
  rcases pieces with _ | ⟨_ | _, _⟩ <;> rfl

/-- What is left beside a reading stays with it. -/
def frame (gs : List OpenGroup) (x : Reading × List Char) : Reading × List Char :=
  (x.1.under gs, x.2)

theorem frame_bind {α : Type} {x : Except PatternError α}
    {g g' : α → Except PatternError (Reading × List Char)}
    (h : ∀ a, g' a = (g a).map (frame gs)) : (x >>= g') = (x >>= g).map (frame gs) := by
  cases x with
  | error e => rfl
  | ok a => exact h a

theorem frame_map_bind (x : Except PatternError Reading) (rest : List Char) :
    (x.map (·.under gs) >>= fun r => .ok (r, rest)) =
      (x >>= fun r => .ok (r, rest)).map (frame gs) := by
  cases x <;> rfl

theorem frame_check {x : Except PatternError Reading}
    {y y' : Except PatternError (Reading × List Char)} (h : y' = y.map (frame gs)) :
    (x.map (·.under gs) >>= fun _ => y') = (x >>= fun _ => y).map (frame gs) := by
  cases x with
  | error e => rfl
  | ok a => exact h

theorem under_opened (x : Opening × List Char) :
    (r.under gs).opened x = (r.opened x).map (frame gs) := by
  obtain ⟨opening, rest⟩ := x
  cases opening with
  | lookAround => rfl
  | named =>
      refine frame_bind gs fun (name, rest) => ?_
      dsimp only
      rw [under_openCapture]
      exact frame_map_bind gs _ _
  | flagged =>
      refine frame_bind gs fun ((inner, closed, given), rest) => ?_
      cases closed <;> cases given <;> rfl
  | plain =>
      dsimp only [opened]
      rw [under_openCapture]
      exact frame_map_bind gs _ _

/-- One item is read alike whatever groups are open around, unless it closes one of these. -/
theorem under_step {c : Char} {rest : List Char} (h : c = ')' → r.stack ≠ []) :
    (r.under gs).step c rest = (r.step c rest).map (frame gs) := by
  unfold step
  dsimp only [under_flags]
  have hrepeat (low : Nat) (high : Option Nat) (greedy : Bool) (rest : List Char) :
      ((r.under gs).repeatLast low high greedy >>= fun r => .ok (r, rest)) =
        (r.repeatLast low high greedy >>= fun r => .ok (r, rest)).map (frame gs) := by
    rw [under_repeatLast]
    exact frame_map_bind gs _ _
  have hadd (x : Except PatternError Expr) (depth : Nat) (rest : List Char) :
      (x >>= fun e => .ok ((r.under gs).add e depth, rest)) =
        (x >>= fun e => .ok (r.add e depth, rest)).map (frame gs) :=
    frame_bind gs fun _ => rfl
  split
  · rw [afterOpen_eq, afterOpen_eq, under_flags]
    exact under_opened r gs _
  · rw [under_closeGroup r gs (h rfl)]
    exact frame_map_bind gs _ _
  · rfl
  · exact frame_bind gs fun ((set, depth), rest) => hadd _ depth rest
  iterate 3 exact hrepeat _ _ _ _
  · rw [under_repeatLast]
    exact frame_check gs (frame_bind gs fun _ => hrepeat _ _ _ _)
  · exact frame_bind gs fun (a, rest) => hadd _ 0 rest
  · exact hadd _ 0 rest
  · rfl
  · rfl
  · exact hadd _ 0 rest

/-! ### One item -/

/-- What an item that is read only in the wrapper has left: the end of the wrapper, whose
parenthesis it has taken, or a brace that counts nothing. -/
def ItemLeft (r : Reading) (rest : List Char) : Prop :=
  rest = ['$'] ∨ ∃ u, rest = '\x7b' :: u ∧ skip r.flags u = closing

variable {r} {n : Nat} {rest rest' : List Char} {D : Reading → List Char → Prop}

theorem alike_read (x : Except PatternError Reading) (closes : Closes rest rest')
    (le : rest.length ≤ n) :
    Alike D n (x >>= fun r => .ok (r, rest)) (x >>= fun r => .ok (r, rest')) := by
  cases x with
  | error e => exact .neither
  | ok r => exact .both closes le

theorem alike_opened {x y : Opening × List Char} (h : AlikeTaken n x y) :
    Alike ItemLeft n (r.opened x) (r.opened y) := by
  obtain ⟨opening, rest⟩ := x
  obtain ⟨opening', rest'⟩ := y
  obtain ⟨hopening, closes, le⟩ := h
  obtain rfl : opening' = opening := hopening
  cases opening' with
  | lookAround => exact .neither
  | named =>
      exact (alike_scanName closes).bind_never fun name t t' ht hle =>
        alike_read _ ht (Nat.le_trans hle le)
  | flagged =>
      refine (alike_scanFlags r.flags [] false r.flags closes).bind
        (fun (inner, closed, given) t t' ht hle => ?_) fun e (inner, closed, given) t hleft => ?_
      · have hle := Nat.le_trans hle le
        cases closed with
        | false => exact .both ht hle
        | true =>
            cases given with
            | false => exact .neither
            | true => exact .both ht hle
      · cases closed with
        | false => exact .late (.inl hleft)
        | true =>
            cases given with
            | false => exact .neither
            | true => exact .late (.inl hleft)
  | plain => exact alike_read _ closes le

theorem alike_scanLazy (h : Closes s s') : AlikeTaken s.length (scanLazy s) (scanLazy s') := by
  cases h with
  | closing => exact ⟨rfl, .closing, Nat.le_refl _⟩
  | lost => exact ⟨rfl, .lost, Nat.le_refl _⟩
  | @cons c s s' tail ne_nil =>
      by_cases hc : c = '?'
      · subst hc
        exact ⟨rfl, tail, Nat.le_succ _⟩
      · have hother (t : List Char) : scanLazy (c :: t) = (true, c :: t) := by
          unfold scanLazy
          split <;> simp_all
        rw [hother, hother]
        exact ⟨rfl, .cons tail ne_nil, Nat.le_refl _⟩

theorem alike_repeat (low : Nat) (high : Option Nat) (h : Closes s s') (hn : s.length ≤ n) :
    Alike D n
      (r.repeatLast low high (scanLazy s).1 >>= fun r => .ok (r, (scanLazy s).2))
      (r.repeatLast low high (scanLazy s').1 >>= fun r => .ok (r, (scanLazy s').2)) := by
  obtain ⟨hgreedy, closes, le⟩ := alike_scanLazy h
  rw [hgreedy]
  exact alike_read _ closes (Nat.le_trans le hn)

theorem alike_add (x : Except PatternError Expr) (depth : Nat) (closes : Closes rest rest')
    (le : rest.length ≤ n) :
    Alike D n (x >>= fun e => .ok (r.add e depth, rest))
      (x >>= fun e => .ok (r.add e depth, rest')) := by
  cases x with
  | error e => exact .neither
  | ok e => exact .both closes le

/-- One item is read in the wrapper as it is read alone. -/
theorem alike_step (c : Char) (h : Closes s s') :
    Alike ItemLeft s.length (r.step c s) (r.step c s') := by
  have hself := Nat.le_refl s.length
  unfold step
  dsimp only
  split
  · rw [afterOpen_eq, afterOpen_eq]
    have hopening := alike_scanOpening (h.skip (f := r.flags))
    exact (alike_opened hopening).mono (length_skip_le r.flags s) fun _ _ => id
  · exact alike_read _ h hself
  · exact .both h hself
  · exact (alike_scanClass h).bind_never fun a t t' ht hle => alike_add _ a.2 ht hle
  iterate 3 exact alike_repeat _ _ h hself
  · cases r.repeatLast 0 none true with
    | error e => exact .neither
    | ok _ =>
        refine (alike_scanCount h).bind_never fun (low, high) t t' ht hle => ?_
        exact alike_repeat low high (ht.skip (f := r.flags))
          (Nat.le_trans (length_skip_le r.flags t) hle)
  · refine (alike_scanEscape h).bind (fun a t t' ht hle => alike_add _ 0 ht hle)
      fun e a t hleft => ?_
    dsimp only
    cases atom r.flags a with
    | error e => exact .neither
    | ok e => exact .late (hleft.imp_right And.right)
  · exact alike_add _ 0 h hself
  · exact .both h hself
  · exact .both h hself
  · exact alike_add _ 0 h hself

/-! ### A whole pattern -/

theorem loop_end {r : Reading} (fuel : Nat) (h : skip r.flags s = []) : loop fuel r s = .ok r := by
  cases fuel with
  | zero => rfl
  | succ fuel => rw [loop, h]

theorem loop_item {r : Reading} {c : Char} (fuel : Nat) (h : skip r.flags s = c :: rest) :
    loop (fuel + 1) r s = r.step c rest >>= fun (r, rest) => loop fuel r rest := by
  rw [loop, h]

theorem loop_step {r r' : Reading} {c : Char} (fuel : Nat) (h : skip r.flags s = c :: rest)
    (hstep : r.step c rest = .ok (r', rest')) : loop (fuel + 1) r s = loop fuel r' rest' := by
  rw [loop_item fuel h, hstep]
  rfl

theorem step_unopened {r : Reading} (h : r.stack = []) :
    r.step ')' rest = .error .groupUnopened := by
  unfold step closeGroup
  rw [h]
  rfl

theorem loop_skip {r : Reading} (fuel : Nat) (h : skip r.flags s = skip r.flags s') :
    loop fuel r s = loop fuel r s' := by
  cases fuel with
  | zero => rfl
  | succ fuel => rw [loop, loop, h]

theorem length_le_of_step {r r' : Reading} {c : Char} (h : r.step c s = .ok (r', rest)) :
    rest.length ≤ s.length := by
  have hstep := alike_step (r := r) c (Closes.append s)
  generalize r.step c (s ++ closing) = y at hstep
  rw [h] at hstep
  cases hstep with
  | both _ le => exact le

/-- The bound on the number of items does not matter, if it is above the number of characters. -/
theorem loop_of_lt {fuel fuel' : Nat} (r : Reading) (h : s.length < fuel) (h' : s.length < fuel') :
    loop fuel r s = loop fuel' r s := by
  induction fuel generalizing fuel' r s with
  | zero => exact absurd h (Nat.not_lt_zero _)
  | succ fuel ih =>
      obtain ⟨fuel', rfl⟩ : ∃ n, fuel' = n + 1 := ⟨fuel' - 1, by omega⟩
      have hlength := length_skip_le r.flags s
      cases hskip : skip r.flags s with
      | nil => rw [loop_end _ hskip, loop_end _ hskip]
      | cons c u =>
          rw [hskip] at hlength
          simp only [List.length_cons] at hlength
          rw [loop_item fuel hskip, loop_item fuel' hskip]
          cases hstep : r.step c u with
          | error e => rfl
          | ok x =>
              have hle := length_le_of_step hstep
              exact ih x.1 (by omega) (by omega)

/-- What the reading of a pattern alone has to do with its readings within other groups. The end of
the pattern is met alike, and there the end of the wrapper is next, or lost. A pattern that is
refused alone is refused in any wrapper, or leaves the groups around it open. -/
inductive Wrapped :
    Except PatternError Reading → (List OpenGroup → Except PatternError Reading) → Prop where
  | unopened {y : List OpenGroup → Except PatternError Reading} :
      Wrapped (.error .groupUnopened) y
  | ended {r : Reading} {fuel : Nat} (hfuel : 2 ≤ fuel) :
      Wrapped (.ok r) fun gs => loop fuel (r.under gs) closing
  | lost {r : Reading} : Wrapped (.ok r) fun gs => .ok (r.under gs)
  | refused {e : PatternError} {y : List OpenGroup → Except PatternError Reading}
      (suffix : ∀ gs r, y gs = .ok r → gs <:+ r.stack) : Wrapped (.error e) y

theorem scanCount_of_closing (h : skip f s = closing) : ∃ e, scanCount f s = .error e := by
  refine ⟨.count, ?_⟩
  rw [scanCount, h, scanDecimal_closing]
  rfl

theorem loop_dollar (fuel : Nat) (r : Reading) :
    ∃ r', loop fuel r ['$'] = .ok r' ∧ r'.stack = r.stack := by
  cases fuel with
  | zero => exact ⟨r, rfl, rfl⟩
  | succ fuel =>
      exact ⟨_, (loop_step fuel (skip_dollar _) rfl).trans (loop_end fuel (skip_nil _)), rfl⟩

/-- An item that is read only in the wrapper has taken its end, so the groups around stay open. -/
theorem suffix_of_left {r r' : Reading} {gs : List OpenGroup} (fuel : Nat) (h : ItemLeft r rest)
    (hloop : loop fuel (r.under gs) rest = .ok r') : gs <:+ r'.stack := by
  cases fuel with
  | zero =>
      cases hloop
      exact List.suffix_append _ _
  | succ fuel =>
      rcases h with rfl | ⟨u, rfl, hu⟩
      · obtain ⟨r'', hdollar, hstack⟩ := loop_dollar (fuel + 1) (r.under gs)
        rw [hdollar] at hloop
        cases hloop
        rw [hstack]
        exact List.suffix_append _ _
      · obtain ⟨e, he⟩ := scanCount_of_closing hu
        rw [loop_item fuel (skip_of_solid (by decide) (by decide) u)] at hloop
        unfold step at hloop
        dsimp only [under_flags] at hloop
        rw [he] at hloop
        cases hrepeat : (r.under gs).repeatLast 0 none true <;> rw [hrepeat] at hloop <;>
          cases hloop

/-- A pattern is read within other groups as it is read alone. -/
theorem wrapped_loop (fuel fuel' : Nat) (r : Reading) (h : Closes s s')
    (hfuel : s.length < fuel) (hfuel' : s' ≠ [] → s.length + 2 < fuel') :
    Wrapped (loop fuel r s) fun gs => loop fuel' (r.under gs) s' := by
  -- the induction is on the items of the pattern; both readings hold the same groups of their own
  induction fuel generalizing fuel' r s s' with
  | zero => exact absurd hfuel (Nat.not_lt_zero _)
  | succ fuel ih =>
      have hlength := length_skip_le r.flags s
      have hskip := h.skip (f := r.flags)
      generalize hu : skip r.flags s = u at hskip hlength
      generalize hu' : skip r.flags s' = u' at hskip
      have hne : u' ≠ [] → s' ≠ [] := by
        rintro hne rfl
        rw [skip_nil] at hu'
        exact hne hu'.symm
      cases hskip with
      | closing =>
          have hfuel' := hfuel' (hne (List.cons_ne_nil _ _))
          have hloop (gs : List OpenGroup) :
              loop fuel' (r.under gs) s' = loop fuel' (r.under gs) closing :=
            loop_skip fuel' (by rw [under_flags, hu', skip_closing])
          simp only [loop_end _ hu, hloop]
          exact .ended (by omega)
      | lost =>
          have hloop (gs : List OpenGroup) : loop fuel' (r.under gs) s' = .ok (r.under gs) :=
            loop_end fuel' hu'
          simp only [loop_end _ hu, hloop]
          exact .lost
      | @cons c u u' tail _ =>
          have hfuel' := hfuel' (hne (List.cons_ne_nil _ _))
          have hlength : u.length + 1 ≤ s.length := hlength
          obtain ⟨fuel', rfl⟩ : ∃ n, fuel' = n + 1 := ⟨fuel' - 1, by omega⟩
          -- only a parenthesis that closes no group of the pattern reaches the groups around it
          by_cases hframe : c = ')' → r.stack ≠ []
          · have hloop (gs : List OpenGroup) : loop (fuel' + 1) (r.under gs) s' =
                (r.step c u').map (frame gs) >>= fun (r, rest) => loop fuel' r rest := by
              rw [loop_item (r := r.under gs) fuel' hu', under_step r gs hframe]
            simp only [loop_item fuel hu, hloop]
            have hstep := alike_step (r := r) c tail
            generalize r.step c u = x at hstep
            generalize r.step c u' = y at hstep
            cases hstep with
            | @both r rest _ closes le =>
                have hnext := ih fuel' r closes (by omega) fun _ => by omega
                exact hnext
            | neither =>
                refine .refused fun gs r h => ?_
                cases h
            | late left => exact .refused fun gs r h => suffix_of_left fuel' left h
          · obtain ⟨rfl, hstack⟩ : c = ')' ∧ r.stack = [] := by simpa using hframe
            rw [loop_item fuel hu, step_unopened hstack]
            exact .unopened

end Reading

end HttpGateway.Regex
