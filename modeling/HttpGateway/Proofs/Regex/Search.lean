import HttpGateway.Proofs.Answer
import HttpGateway.Proofs.Regex.Meaning
import HttpGateway.Regex.Basic

/-!
# Matches are found

The search through a text finds a match just if there is one. At each place the threads are followed
along the edges that read nothing until no new node is reached; the bound on the steps suffices for
that, since every step pays with an edge of a node that has not been seen before or with a thread.
-/

namespace HttpGateway.Regex

variable {pr : Program} {pos p q : Position} {index n m k : Nat} {t u : Thread}
  {stack out : List Thread} {seen : Nat}

/-! ### Places -/

namespace Position

/-- A place before another one in the same text. -/
def IsBefore (p q : Position) : Prop :=
  ∃ between, p.ahead = between ++ q.ahead ∧ q.behind = between.reverse ++ p.behind

theorem isBefore_start {text : List Char} (h : p.text = text) : (start text).IsBefore p :=
  ⟨p.behind.reverse, h.symm, by simp [start]⟩

theorem IsBefore.eq_or {c : Char} {behind rest : List Char} (h : IsBefore ⟨behind, c :: rest⟩ q) :
    q = ⟨behind, c :: rest⟩ ∨ IsBefore ⟨c :: behind, rest⟩ q := by
  obtain ⟨between, hahead, hbehind⟩ := h
  cases between with
  | nil =>
      obtain ⟨qbehind, qahead⟩ := q
      exact .inl (by simp_all)
  | cons d between =>
      obtain ⟨rfl, hrest⟩ := List.cons.inj hahead
      exact .inr ⟨between, hrest, by simpa using hbehind⟩

theorem IsBefore.eq_of_end {behind : List Char} (h : IsBefore ⟨behind, []⟩ q) :
    q = ⟨behind, []⟩ := by
  obtain ⟨between, hahead, hbehind⟩ := h
  obtain ⟨rfl, hq⟩ := List.append_eq_nil_iff.mp hahead.symm
  obtain ⟨qbehind, qahead⟩ := q
  simp_all

end Position

/-! ### Following threads -/

namespace Program

/-- Whether the node waits for a character or accepts. -/
def waits (pr : Program) (n : Nat) : Bool :=
  match pr.nodes[n]? with
  | some (.read _ _) | some .accept => true
  | _ => false

/-- The threads that a thread turns into without a character. -/
def onward (pr : Program) (place : Place) (index : Nat) (t : Thread) : List Thread :=
  match pr.nodes[t.node]? with
  | some (.pass next) => [{ t with node := next }]
  | some (.check l next) => if l.holds place then [{ t with node := next }] else []
  | some (.note slot next) => [⟨next, t.places.setIfInBounds slot (some index)⟩]
  | some (.branch choices) => choices.map fun n => { t with node := n }
  | _ => []

/-- A thread at a node that has been seen is dropped; any other is replaced by those it turns
into. -/
theorem follow_cons (pr : Program) (place : Place) (index fuel : Nat) (t : Thread)
    (stack : List Thread) (seen : Nat) (out : List Thread) :
    pr.follow place index (fuel + 1) (t :: stack) seen out =
      if seen.testBit t.node then pr.follow place index fuel stack seen out
      else pr.follow place index fuel (pr.onward place index t ++ stack) (seen ||| 1 <<< t.node)
        (if pr.waits t.node then t :: out else out) := by
  rw [follow]
  split
  · rfl
  · rw [onward, waits]
    cases pr.nodes[t.node]? with
    | none => rfl
    | some node =>
        cases node with
        | check l next => dsimp only; split <;> rfl
        | _ => rfl

theorem mem_onward_iff : (∃ u ∈ pr.onward pos.place index t, u.node = m) ↔
    Edge pr.nodes t.node pos m pos := by
  have hread (chars : CharSet) : ¬Reads chars pos pos := by
    rintro ⟨c, -, hahead, -⟩
    simp at hahead
  unfold onward
  cases hnode : pr.nodes[t.node]? with
  | none => simp [Edge, hnode]
  | some node =>
      rw [edge_iff hnode]
      cases node with
      | check l next => cases hl : l.holds pos.place <;> simp [Node.Leads, hl, eq_comm]
      | read chars next => simp [Node.Leads, hread]
      | branch choices =>
          constructor
          · rintro ⟨u, hu, rfl⟩
            obtain ⟨n, hn, rfl⟩ := List.mem_map.mp hu
            exact ⟨hn, rfl⟩
          · rintro ⟨hm, -⟩
            exact ⟨_, List.mem_map.mpr ⟨m, hm, rfl⟩, rfl⟩
      | _ => simp [Node.Leads, eq_comm]

/-- What the edges that read nothing keep is kept of all threads that are followed. -/
theorem follow_keeps {P : Nat → Prop} (hedge : ∀ n m, P n → Edge pr.nodes n pos m pos → P m)
    (fuel : Nat) (hstack : ∀ t ∈ stack, P t.node) (hout : ∀ t ∈ out, P t.node) :
    ∀ t ∈ (pr.follow pos.place index fuel stack seen out).1, P t.node := by
  induction fuel generalizing stack seen out with
  | zero => simpa [follow] using hout
  | succ fuel ih =>
      cases stack with
      | nil => simpa [follow] using hout
      | cons t stack =>
          obtain ⟨ht, hrest⟩ := List.forall_mem_cons.mp hstack
          rw [follow_cons]
          split
          · exact ih hrest hout
          · refine ih (List.forall_mem_append.mpr ⟨fun u hu => ?_, hrest⟩) ?_
            · exact hedge _ _ ht (mem_onward_iff.mp ⟨u, hu, rfl⟩)
            · split
              · exact List.forall_mem_cons.mpr ⟨ht, hout⟩
              · exact hout

/-! ### All that can be reached -/

theorem testBit_mark {seen n m : Nat} :
    (seen ||| 1 <<< n).testBit m = true ↔ seen.testBit m = true ∨ m = n := by
  rw [Nat.testBit_or, Nat.one_shiftLeft, Nat.testBit_two_pow, Bool.or_eq_true, decide_eq_true_iff,
    eq_comm (a := n)]

/-- The edges of a node that count, and one more. -/
def weight : Node → Nat
  | .branch choices => choices.length + 1
  | _ => 2

/-- The weight of the nodes, numbered from here on, that have not been seen. -/
def unseen (seen : Nat) : (first : Nat) → List Node → Nat
  | _, [] => 0
  | first, node :: rest =>
    (if seen.testBit first then 0 else weight node) + unseen seen (first + 1) rest

theorem unseen_mark_le (seen n first : Nat) (nodes : List Node) :
    unseen (seen ||| 1 <<< n) first nodes ≤ unseen seen first nodes := by
  induction nodes generalizing first with
  | nil => exact Nat.le_refl 0
  | cons node rest ih =>
      have hrest := ih (first + 1)
      by_cases hfirst : seen.testBit first = true
      · simpa [unseen, hfirst, testBit_mark.mpr (.inl hfirst)] using hrest
      · simp only [unseen, hfirst]
        split <;> simp <;> omega

/-- A node that is seen for the first time pays its weight. -/
theorem unseen_mark {i : Nat} {nodes : List Node} {node : Node} (seen first : Nat)
    (hnode : nodes[i]? = some node) (hunseen : seen.testBit (first + i) = false) :
    unseen (seen ||| 1 <<< (first + i)) first nodes + weight node ≤ unseen seen first nodes := by
  induction nodes generalizing first i with
  | nil => simp at hnode
  | cons head rest ih =>
      cases i with
      | zero =>
          have hrest := unseen_mark_le seen first (first + 1) rest
          obtain rfl : head = node := by simpa using hnode
          rw [Nat.add_zero] at hunseen ⊢
          simp only [unseen, hunseen, testBit_mark.mpr (.inr rfl)]
          simp
          omega
      | succ i =>
          have hshift : first + (i + 1) = first + 1 + i := by omega
          rw [hshift] at hunseen ⊢
          have hrest := ih (first + 1) (by simpa using hnode) hunseen
          have hhead : (seen ||| 1 <<< (first + 1 + i)).testBit first = seen.testBit first := by
            rw [Bool.eq_iff_iff, testBit_mark]
            exact or_iff_left (by omega)
          simp only [unseen, hhead]
          omega

theorem foldl_weight (a first : Nat) (nodes : List Node) :
    nodes.foldl (fun n node => n + weight node) a = a + unseen 0 first nodes := by
  induction nodes generalizing a first with
  | nil => rfl
  | cons node rest ih => simp [unseen, ih _ (first + 1), Nat.add_assoc]

/-- The edges of a program are enough for all of its nodes. -/
theorem edges_eq (pr : Program) : pr.edges = 1 + unseen 0 0 pr.nodes.toList := by
  rw [← foldl_weight, Array.foldl_toList]
  rfl

/-- What has been reached from a stack of threads: what has been seen and collected before is kept,
all threads of the stack have been seen, and so has all that the edges from there lead to. -/
structure Explored (pr : Program) (pos : Position) (stack : List Thread) (seen : Nat)
    (out : List Thread) (result : List Thread × Nat) : Prop where
  keepsSeen : ∀ n, seen.testBit n = true → result.2.testBit n = true
  keepsOut : ∀ t ∈ out, t ∈ result.1
  covers : ∀ t ∈ stack, result.2.testBit t.node = true
  closed : ∀ n, result.2.testBit n = true → seen.testBit n = true ∨
    (∀ m, Edge pr.nodes n pos m pos → result.2.testBit m = true) ∧
      (pr.waits n = true → ∃ t ∈ result.1, t.node = n)

variable {result : List Thread × Nat}

theorem Explored.skip (h : Explored pr pos stack seen out result)
    (ht : seen.testBit t.node = true) :
    Explored pr pos (t :: stack) seen out result where
  keepsSeen := h.keepsSeen
  keepsOut := h.keepsOut
  covers := List.forall_mem_cons.mpr ⟨h.keepsSeen _ ht, h.covers⟩
  closed := h.closed

theorem Explored.visit
    (h : Explored pr pos (pr.onward pos.place index t ++ stack) (seen ||| 1 <<< t.node)
      (if pr.waits t.node then t :: out else out) result) :
    Explored pr pos (t :: stack) seen out result where
  keepsSeen n hn := h.keepsSeen n (testBit_mark.mpr (.inl hn))
  keepsOut u hu := h.keepsOut u (by split <;> simp [hu])
  covers := by
    obtain ⟨-, hrest⟩ := List.forall_mem_append.mp h.covers
    exact List.forall_mem_cons.mpr ⟨h.keepsSeen _ (testBit_mark.mpr (.inr rfl)), hrest⟩
  closed n hn := by
    rcases h.closed n hn with hseen | hclosed
    · rcases testBit_mark.mp hseen with hseen | rfl
      · exact .inl hseen
      · refine .inr ⟨fun m edge => ?_, fun hwaits => ⟨t, h.keepsOut t (by simp [hwaits]), rfl⟩⟩
        obtain ⟨u, hu, rfl⟩ := mem_onward_iff.mpr edge
        exact h.covers u (List.mem_append_left _ hu)
    · exact .inr hclosed

/-- A thread turns into fewer threads than its node weighs. -/
theorem length_onward_lt (place : Place) (index : Nat) {node : Node}
    (hnode : pr.nodes[t.node]? = some node) :
    (pr.onward place index t).length < weight node := by
  unfold onward
  rw [hnode]
  cases node with
  | check l next => dsimp only; split <;> simp [weight]
  | _ => simp [weight]

theorem explored_follow (pr : Program) (pos : Position) (index fuel : Nat) (stack : List Thread)
    (seen : Nat) (out : List Thread)
    (hfuel : unseen seen 0 pr.nodes.toList + stack.length ≤ fuel) :
    Explored pr pos stack seen out (pr.follow pos.place index fuel stack seen out) := by
  induction fuel generalizing stack seen out with
  | zero =>
      obtain rfl : stack = [] := List.eq_nil_of_length_eq_zero (by omega)
      exact ⟨fun _ h => h, fun _ h => h, by simp, fun _ h => .inl h⟩
  | succ fuel ih =>
      cases stack with
      | nil => exact ⟨fun _ h => h, fun _ h => h, by simp, fun _ h => .inl h⟩
      | cons t stack =>
          rw [List.length_cons] at hfuel
          rw [follow_cons]
          split
          · next ht => exact (ih _ _ _ (by omega)).skip ht
          · next ht =>
            refine .visit (ih _ _ _ ?_)
            rw [List.length_append]
            cases hnode : pr.nodes[t.node]? with
            | none =>
                have hmark := unseen_mark_le seen t.node 0 pr.nodes.toList
                have hnone : pr.onward pos.place index t = [] := by rw [onward, hnode]
                rw [hnone, List.length_nil]
                omega
            | some node =>
                have hpays := unseen_mark seen 0 (Array.getElem?_toList.trans hnode)
                  (by simpa using ht)
                have hfew := length_onward_lt pos.place index hnode
                rw [Nat.zero_add] at hpays
                omega

/-- From a stack that is followed to its end, a run that reads nothing more is found to accept, and
any other at a node that reads the next character. -/
theorem exists_waiting (h : Explored pr pos stack 0 out result) (ht : t ∈ stack)
    (hrun : Accepts pr.nodes k t.node pos q) :
    ∃ u ∈ result.1, pr.nodes[u.node]? = some .accept ∨
      ∃ chars next p j, pr.nodes[u.node]? = some (.read chars next) ∧ Reads chars pos p ∧
        Accepts pr.nodes j next p q := by
  have hseen := h.covers t ht
  generalize t.node = n at hseen hrun
  induction k generalizing n with
  | zero =>
      cases hrun with
      | accept node =>
          rcases h.closed n hseen with hzero | ⟨-, hwaits⟩
          · simp at hzero
          · obtain ⟨u, hu, rfl⟩ := hwaits (by rw [waits, node])
            exact ⟨u, hu, .inl node⟩
  | succ k ih =>
      cases hrun with
      | @step _ _ m _ p _ edge rest =>
          rcases h.closed n hseen with hzero | ⟨hedges, hwaits⟩
          · simp at hzero
          obtain ⟨node, hnode, hleads⟩ := edge
          have hidle (hp : pos = p) : result.2.testBit m = true :=
            hedges m ⟨node, hnode, hp ▸ hleads⟩
          cases node with
          | read chars next =>
              obtain ⟨rfl, hreads⟩ := hleads
              obtain ⟨u, hu, rfl⟩ := hwaits (by rw [waits, hnode])
              exact ⟨u, hu, .inr ⟨chars, m, p, k, hnode, hreads, rest⟩⟩
          | check l next =>
              obtain ⟨-, -, rfl⟩ := hleads
              exact ih m (hidle rfl) rest
          | accept => exact hleads.elim
          | pass next | note slot next | branch choices =>
              obtain ⟨-, rfl⟩ := hleads
              exact ih m (hidle rfl) rest

/-! ### Reading a character -/

variable {c : Option Char} {threads : List Thread}

theorem exists_accepting {places : Array (Option Nat)}
    (h : (pr.advance c threads).2 = some places) :
    ∃ t ∈ threads, pr.nodes[t.node]? = some .accept := by
  induction threads with
  | nil => cases h
  | cons t rest ih =>
      rw [advance] at h
      split at h
      · next hnode => exact ⟨t, List.mem_cons_self, hnode⟩
      · obtain ⟨u, hu, hnode⟩ := ih (by dsimp only at h; split at h <;> exact h)
        exact ⟨u, List.mem_cons_of_mem t hu, hnode⟩
      · obtain ⟨u, hu, hnode⟩ := ih h
        exact ⟨u, List.mem_cons_of_mem t hu, hnode⟩

/-- A thread goes on only by reading the character. -/
theorem exists_read (hu : u ∈ (pr.advance c threads).1) :
    ∃ t ∈ threads, ∃ chars, pr.nodes[t.node]? = some (.read chars u.node) ∧
      c.any chars.contains = true := by
  induction threads with
  | nil => cases hu
  | cons t rest ih =>
      have hlater (hu : u ∈ (pr.advance c rest).1) : ∃ t' ∈ t :: rest, ∃ chars,
          pr.nodes[t'.node]? = some (.read chars u.node) ∧ c.any chars.contains = true := by
        obtain ⟨t', ht', hread⟩ := ih hu
        exact ⟨t', List.mem_cons_of_mem t ht', hread⟩
      rw [advance] at hu
      split at hu
      · cases hu
      · next chars next hnode =>
          dsimp only at hu
          split at hu
          · next hc =>
              rcases List.mem_cons.mp hu with rfl | hu
              · exact ⟨t, List.mem_cons_self, chars, hnode, hc⟩
              · exact hlater hu
          · exact hlater hu
      · exact hlater hu

/-- A waiting thread is not lost, unless one is found that accepts. -/
theorem advance_of_mem (pr : Program) (c : Option Char) (ht : t ∈ threads) :
    (pr.nodes[t.node]? = some .accept → (pr.advance c threads).2.isSome = true) ∧
    ∀ chars next, pr.nodes[t.node]? = some (.read chars next) → c.any chars.contains = true →
      (pr.advance c threads).2.isSome = true ∨ ∃ u ∈ (pr.advance c threads).1, u.node = next := by
  induction threads with
  | nil => cases ht
  | cons head rest ih =>
      rw [advance]
      split
      · exact ⟨fun _ => rfl, fun _ _ _ _ => .inl rfl⟩
      · next chars next hnode =>
          dsimp only
          rcases List.mem_cons.mp ht with rfl | ht
          · refine ⟨fun haccept => by simp [hnode] at haccept, fun chars' next' hread hc => ?_⟩
            obtain ⟨rfl, rfl⟩ : chars = chars' ∧ next = next' := by simpa [hnode] using hread
            exact .inr ⟨{ t with node := next }, by simp [hc], rfl⟩
          · obtain ⟨haccept, hread⟩ := ih ht
            refine ⟨fun h => by split <;> exact haccept h, fun chars' next' hnode' hc => ?_⟩
            rcases hread chars' next' hnode' hc with hfound | ⟨u, hu, hnext⟩
            · exact .inl (by split <;> exact hfound)
            · exact .inr ⟨u, by split <;> simp [hu], hnext⟩
      · next hnotAccept hnotRead =>
          rcases List.mem_cons.mp ht with rfl | ht
          · exact ⟨fun h => (hnotAccept h).elim, fun _ _ h _ => (hnotRead _ _ h).elim⟩
          · exact ih ht

/-! ### Searching -/

/-- A run from the start of the program, from some place of the text, accepts. -/
def Succeeds (pr : Program) (text : List Char) : Prop :=
  ∃ k p q, p.text = text ∧ Accepts pr.nodes k pr.start p q

/-- What accepts from this node has accepted from the start of the program. -/
def Arises (pr : Program) (n : Nat) (pos : Position) : Prop :=
  ∀ k q, Accepts pr.nodes k n pos q → pr.Succeeds pos.text

theorem arises_start (pr : Program) (pos : Position) : pr.Arises pr.start pos :=
  fun k q hrun => ⟨k, pos, q, rfl, hrun⟩

theorem Arises.edge (h : pr.Arises n p) (edge : Edge pr.nodes n p m q) (htext : q.text = p.text) :
    pr.Arises m q :=
  fun k r hrun => htext ▸ h (k + 1) r (.step edge hrun)

variable {slots : Nat} {r : Run} {behind rest : List Char}

/-- The threads that a place is passed with. -/
def startingThreads (pr : Program) (slots index : Nat) (r : Run) : List Thread :=
  r.threads ++ if r.found.isSome then [] else [pr.fresh slots index]

/-- What the threads of a run reach at a place. -/
def reachedAt (pr : Program) (slots : Nat) (place : Place) (index : Nat) (r : Run) :
    List Thread × Nat :=
  let stack := pr.startingThreads slots index r
  pr.follow place index (pr.edges + stack.length) stack 0 []

theorem pass_eq (pr : Program) (slots : Nat) (place : Place) (index : Nat) (r : Run) :
    pr.pass slots pr.edges place index r =
      let advanced := pr.advance place.after (pr.reachedAt slots place index r).1.reverse
      ⟨advanced.1, (advanced.2.map fun places => places.setIfInBounds 1 (some index)).or r.found⟩ :=
  rfl

theorem isSome_found_pass {place : Place} : (pr.pass slots pr.edges place index r).found.isSome =
    ((pr.advance place.after (pr.reachedAt slots place index r).1.reverse).2.isSome ||
      r.found.isSome) := by
  simp [pass_eq]

theorem arises_reachedAt (hthreads : ∀ t ∈ r.threads, pr.Arises t.node pos) :
    ∀ t ∈ (pr.reachedAt slots pos.place index r).1, pr.Arises t.node pos := by
  refine follow_keeps (P := fun n => pr.Arises n pos) (fun n m h edge => h.edge edge rfl) _ ?_
    (by simp)
  refine List.forall_mem_append.mpr ⟨hthreads, fun t ht => ?_⟩
  split at ht
  · cases ht
  · obtain rfl := List.mem_singleton.mp ht
    exact arises_start pr pos

/-- A match that is found at a place is the end of a run that accepts. -/
theorem succeeds_of_pass (slots index : Nat) (hthreads : ∀ t ∈ r.threads, pr.Arises t.node pos)
    (hfound : (pr.pass slots pr.edges pos.place index r).found.isSome = true) :
    r.found.isSome = true ∨ pr.Succeeds pos.text := by
  rw [isSome_found_pass, Bool.or_eq_true] at hfound
  refine hfound.symm.imp_right fun haccepted => ?_
  obtain ⟨places, hplaces⟩ := Option.isSome_iff_exists.mp haccepted
  obtain ⟨t, ht, hnode⟩ := exists_accepting hplaces
  exact arises_reachedAt hthreads t (List.mem_reverse.mp ht) 0 pos (.accept hnode)

theorem arises_pass {c : Char} (hthreads : ∀ t ∈ r.threads, pr.Arises t.node ⟨behind, c :: rest⟩) :
    ∀ t ∈ (pr.pass slots pr.edges (Position.place ⟨behind, c :: rest⟩) index r).threads,
      pr.Arises t.node ⟨c :: behind, rest⟩ := by
  intro u hu
  obtain ⟨t, ht, chars, hnode, hc⟩ := exists_read hu
  refine (arises_reachedAt hthreads t (List.mem_reverse.mp ht)).edge ?_ (by simp [Position.text])
  exact (edge_iff hnode).mpr ⟨rfl, c, by simpa [Position.place] using hc, rfl, rfl⟩

theorem succeeds_of_search (slots index : Nat) (behind rest : List Char) (r : Run)
    (hthreads : ∀ t ∈ r.threads, pr.Arises t.node ⟨behind, rest⟩)
    (hfound : (pr.search slots pr.edges behind.head? index r rest).isSome = true) :
    r.found.isSome = true ∨ pr.Succeeds (behind.reverse ++ rest) := by
  induction rest generalizing behind index r with
  | nil => exact succeeds_of_pass slots index hthreads hfound
  | cons c rest ih =>
      have hpass := succeeds_of_pass slots index hthreads
      rw [search] at hfound
      split at hfound
      · exact hpass hfound
      · rcases ih _ (c :: behind) _ (arises_pass hthreads) hfound with hfound | hsucceeds
        · exact hpass hfound
        · exact .inr (by simpa using hsucceeds)

/-- At a place the run of a thread either is found to accept or goes on after the next character. -/
theorem pass_of_accepts (ht : t ∈ pr.startingThreads slots index r)
    (hrun : Accepts pr.nodes k t.node pos q) :
    let passed := pr.pass slots pr.edges pos.place index r
    passed.found.isSome = true ∨ ∃ c rest, pos.ahead = c :: rest ∧
      ∃ u ∈ passed.threads, ∃ j, Accepts pr.nodes j u.node ⟨c :: pos.behind, rest⟩ q := by
  intro passed
  have hfuel : unseen 0 0 pr.nodes.toList + (pr.startingThreads slots index r).length ≤
      pr.edges + (pr.startingThreads slots index r).length := by
    rw [edges_eq]
    omega
  have hexplored := explored_follow pr pos index _ _ 0 [] hfuel
  obtain ⟨u, hu, hwaits⟩ := exists_waiting hexplored ht hrun
  have hadvance := advance_of_mem pr pos.place.after (List.mem_reverse.mpr hu)
  rw [show passed.found.isSome = _ from isSome_found_pass, Bool.or_eq_true]
  rcases hwaits with haccept | ⟨chars, next, p, j, hread, ⟨c, hc, hahead, hbehind⟩, hrest⟩
  · exact .inl (.inl (hadvance.1 haccept))
  · have hafter : pos.place.after = some c := by simp [Position.place, hahead]
    rcases hadvance.2 chars next hread (by rw [hafter]; exact hc) with hfound | ⟨v, hv, rfl⟩
    · exact .inl (.inl hfound)
    · refine .inr ⟨c, p.ahead, hahead, v, hv, j, ?_⟩
      rwa [← hbehind]

/-- There is a run that accepts, from one of the threads or from a place that is still to come. -/
def Promises (pr : Program) (r : Run) (pos : Position) : Prop :=
  (∃ t ∈ r.threads, ∃ k q, Accepts pr.nodes k t.node pos q) ∨
    ∃ k p q, pos.IsBefore p ∧ Accepts pr.nodes k pr.start p q

theorem pass_of_promises (slots index : Nat) (h : r.found.isSome = true ∨ pr.Promises r pos) :
    let passed := pr.pass slots pr.edges pos.place index r
    passed.found.isSome = true ∨ ∃ c rest, pos.ahead = c :: rest ∧
      pr.Promises passed ⟨c :: pos.behind, rest⟩ := by
  intro passed
  have hthread {t : Thread} {k : Nat} {q : Position} (ht : t ∈ pr.startingThreads slots index r)
      (hrun : Accepts pr.nodes k t.node pos q) : passed.found.isSome = true ∨
        ∃ c rest, pos.ahead = c :: rest ∧ pr.Promises passed ⟨c :: pos.behind, rest⟩ := by
    rcases pass_of_accepts ht hrun with hfound | ⟨c, rest, hahead, u, hu, j, hrest⟩
    · exact .inl hfound
    · exact .inr ⟨c, rest, hahead, .inl ⟨u, hu, j, q, hrest⟩⟩
  have hhere {k : Nat} {q : Position} (hrun : Accepts pr.nodes k pr.start pos q) :
      passed.found.isSome = true ∨
        ∃ c rest, pos.ahead = c :: rest ∧ pr.Promises passed ⟨c :: pos.behind, rest⟩ := by
    cases hfound : r.found.isSome with
    | true => exact .inl (by simp [passed, isSome_found_pass, hfound])
    | false => exact hthread (t := pr.fresh slots index) (by simp [startingThreads, hfound]) hrun
  rcases h with hfound | ⟨t, ht, k, q, hrun⟩ | ⟨k, p, q, hbefore, hrun⟩
  · exact .inl (by simp [passed, isSome_found_pass, hfound])
  · exact hthread (List.mem_append_left _ ht) hrun
  · obtain ⟨behind, ahead⟩ := pos
    cases ahead with
    | nil => exact hhere (hbefore.eq_of_end ▸ hrun)
    | cons c rest =>
        rcases hbefore.eq_or with rfl | hlater
        · exact hhere hrun
        · exact .inr ⟨c, rest, rfl, .inr ⟨k, p, q, hlater, hrun⟩⟩

/-- What is promised is found. -/
theorem search_of_promises (slots index : Nat) (behind rest : List Char) (r : Run)
    (h : r.found.isSome = true ∨ pr.Promises r ⟨behind, rest⟩) :
    (pr.search slots pr.edges behind.head? index r rest).isSome = true := by
  have hpass := pass_of_promises slots index h
  induction rest generalizing behind index r with
  | nil => exact hpass.resolve_right (by simp)
  | cons c rest ih =>
      rw [search]
      split
      · next hdone => exact (Bool.and_eq_true_iff.mp hdone).2
      · have hnext := hpass.imp_right fun ⟨_, _, hahead, hpromises⟩ => by
          obtain ⟨rfl, rfl⟩ := List.cons.inj hahead
          exact hpromises
        exact ih _ (c :: behind) _ hnext (pass_of_promises slots _ hnext)

/-- A search finds something just if a run accepts. -/
theorem search_iff (pr : Program) (slots : Nat) (text : List Char) :
    (pr.search slots pr.edges none 0 ⟨[], none⟩ text).isSome = true ↔ pr.Succeeds text := by
  constructor
  · intro hfound
    have hsucceeds := succeeds_of_search slots 0 [] text ⟨[], none⟩ (by simp) hfound
    simpa using hsucceeds
  · rintro ⟨k, p, q, htext, hrun⟩
    exact search_of_promises slots 0 [] text ⟨[], none⟩
      (.inr (.inr ⟨k, p, q, Position.isBefore_start htext, hrun⟩))

end Program

end HttpGateway.Regex

namespace HttpGateway.Regex

/-- A pattern matches a text just if its expression leads from a place of the text to another. -/
theorem isMatch_iff {pattern : String} {r : Regex} {e : Expr} {captures : Nat}
    {names : List (String × Nat)} (hread : readPattern pattern = .ok (e, captures, names))
    (hcompile : compile pattern = .ok r) (text : String) :
    r.isMatch text = true ↔ ∃ p q : Position, p.text = text.toList ∧ e.Matches p q := by
  have hprogram : r.program = Program.ofExpr e := by
    obtain ⟨⟨e', captures', names'⟩, hread', hcompile⟩ := bind_eq_ok_iff.mp hcompile
    obtain ⟨rfl, rfl, rfl⟩ : e = e' ∧ captures = captures' ∧ names = names' := by
      simpa [hread] using hread'
    dsimp only at hcompile
    split at hcompile
    · cases hcompile
    · cases hcompile
      rfl
  rw [isMatch, findFrom, hprogram, Program.search_iff]
  constructor
  · rintro ⟨k, p, q, htext, hrun⟩
    exact ⟨p, q, htext, (accepts_ofExpr_iff e).mp ⟨k, hrun⟩⟩
  · rintro ⟨p, q, htext, hmatches⟩
    obtain ⟨k, hrun⟩ := (accepts_ofExpr_iff e).mpr hmatches
    exact ⟨k, p, q, htext, hrun⟩

end HttpGateway.Regex
