import HttpGateway.Regex.Matcher

/-!
# What expressions match

The meaning of expressions, apart from the machine that runs them: which places of a text an
expression leads from and to. The program of an expression accepts just these, since the nodes built
for each part of it lead to the node after the part as the part leads through the text.
-/

namespace HttpGateway.Regex

/-! ### Meaning -/

/-- A place in a text: what stands before it, the nearest character first, and what stands after. -/
structure Position where
  behind : List Char
  ahead : List Char

namespace Position

/-- The characters next to the place. -/
def place (p : Position) : Place := ⟨p.behind.head?, p.ahead.head?⟩

/-- The text that the place is in. -/
def text (p : Position) : List Char := p.behind.reverse ++ p.ahead

/-- The start of a text. -/
def start (text : List Char) : Position := ⟨[], text⟩

/-- The end of a text. -/
def finish (text : List Char) : Position := ⟨text.reverse, []⟩

end Position

variable {R S : Position → Position → Prop} {p q r : Position}

/-- A number of steps one after another. -/
inductive Times (R : Position → Position → Prop) : Nat → Position → Position → Prop where
  | zero {p : Position} : Times R 0 p p
  | succ {n : Nat} {p q r : Position} (first : R p q) (rest : Times R n q r) : Times R (n + 1) p r

namespace Times

theorem snoc {n : Nat} (h : Times R n p q) (last : R q r) : Times R (n + 1) p r := by
  induction h with
  | zero => exact .succ last .zero
  | succ first _ ih => exact .succ first (ih last)

theorem exists_snoc {n : Nat} (h : Times R (n + 1) p r) : ∃ q, Times R n p q ∧ R q r := by
  induction n generalizing p with
  | zero =>
      cases h with
      | succ first rest =>
          cases rest
          exact ⟨p, .zero, first⟩
  | succ n ih =>
      cases h with
      | succ first rest =>
          obtain ⟨q, hq, last⟩ := ih rest
          exact ⟨q, .succ first hq, last⟩

theorem append {m n : Nat} (h : Times R m p q) (h' : Times R n q r) : Times R (m + n) p r := by
  induction h with
  | zero => rwa [Nat.zero_add]
  | succ first _ ih =>
      rw [Nat.add_right_comm]
      exact .succ first (ih h')

theorem exists_append {m n : Nat} (h : Times R (m + n) p r) :
    ∃ q, Times R m p q ∧ Times R n q r := by
  induction m generalizing p with
  | zero =>
      rw [Nat.zero_add] at h
      exact ⟨p, .zero, h⟩
  | succ m ih =>
      rw [Nat.add_right_comm] at h
      cases h with
      | succ first rest =>
          obtain ⟨q, hq, hrest⟩ := ih rest
          exact ⟨q, .succ first hq, hrest⟩

end Times

/-- A character of the set stands between two places. -/
def Reads (chars : CharSet) (p q : Position) : Prop :=
  ∃ c, chars.contains c = true ∧ p.ahead = c :: q.ahead ∧ q.behind = c :: p.behind

/-- The expression leads from one place of a text to another. Of bounds that cross the lower one
counts. -/
def Expr.Matches : Expr → Position → Position → Prop
  | .empty, p, q => p = q
  | .set chars, p, q => Reads chars p q
  | .look l, p, q => l.holds p.place = true ∧ p = q
  | .capture _ e, p, q => e.Matches p q
  | .cat a b, p, q => ∃ middle, a.Matches p middle ∧ b.Matches middle q
  | .alt a b, p, q => a.Matches p q ∨ b.Matches p q
  | .repeat low high _ e, p, q =>
    ∃ n, low ≤ n ∧ (∀ h ∈ high, n ≤ max low h) ∧ Times e.Matches n p q

/-! ### Runs of programs -/

/-- A node leads from one place to another node at another place. -/
def Node.Leads : Node → Position → Nat → Position → Prop
  | .pass next, p, m, q => m = next ∧ p = q
  | .read chars next, p, m, q => m = next ∧ Reads chars p q
  | .check l next, p, m, q => m = next ∧ l.holds p.place = true ∧ p = q
  | .note _ next, p, m, q => m = next ∧ p = q
  | .branch choices, p, m, q => m ∈ choices ∧ p = q
  | .accept, _, _, _ => False

/-- An edge of a program, at places of a text. -/
def Edge (nodes : Array Node) (n : Nat) (p : Position) (m : Nat) (q : Position) : Prop :=
  ∃ node, nodes[n]? = some node ∧ node.Leads p m q

theorem edge_iff {nodes : Array Node} {n m : Nat} {node : Node} (h : nodes[n]? = some node) :
    Edge nodes n p m q ↔ node.Leads p m q := by
  simp [Edge, h]

/-- From a node at one place so many edges lead to an accepting node at another. -/
inductive Accepts (nodes : Array Node) : Nat → Nat → Position → Position → Prop where
  | accept {n : Nat} {p : Position} (node : nodes[n]? = some .accept) : Accepts nodes 0 n p p
  | step {k n m : Nat} {p q r : Position} (edge : Edge nodes n p m q)
      (rest : Accepts nodes k m q r) :
      Accepts nodes (k + 1) n p r

variable {nodes nodes' graph : Array Node} {next k n m : Nat}

/-- A run that starts at a node other than an accepting one takes an edge. -/
theorem Accepts.exists_edge (h : Accepts nodes k n p r) (hn : nodes[n]? ≠ some .accept) :
    ∃ j m q, k = j + 1 ∧ Edge nodes n p m q ∧ Accepts nodes j m q r := by
  cases h with
  | accept node => exact absurd node hn
  | step edge rest => exact ⟨_, _, _, rfl, edge, rest⟩

/-! ### Nodes -/

/-- All nodes have been kept. -/
structure Extends (nodes nodes' : Array Node) : Prop where
  size_le : nodes.size ≤ nodes'.size
  kept : ∀ n < nodes.size, nodes'[n]? = nodes[n]?

namespace Extends

theorem refl (nodes : Array Node) : Extends nodes nodes := ⟨Nat.le_refl _, fun _ _ => rfl⟩

theorem trans {nodes'' : Array Node} (h : Extends nodes nodes') (h' : Extends nodes' nodes'') :
    Extends nodes nodes'' :=
  ⟨Nat.le_trans h.size_le h'.size_le, fun n hn =>
    (h'.kept n (Nat.lt_of_lt_of_le hn h.size_le)).trans (h.kept n hn)⟩

theorem push (nodes : Array Node) (node : Node) : Extends nodes (nodes.push node) :=
  ⟨by simp, fun n hn => by rw [Array.getElem?_push_lt hn, Array.getElem?_eq_getElem hn]⟩

end Extends

/-- The graph holds the nodes from this number on. -/
def Holds (graph nodes : Array Node) (low : Nat) : Prop :=
  ∀ n, low ≤ n → n < nodes.size → graph[n]? = nodes[n]?

theorem Holds.of_extends {low : Nat} (h : Holds graph nodes' low) (hkept : Extends nodes nodes') :
    Holds graph nodes low :=
  fun n hlow hn => (h n hlow (Nat.lt_of_lt_of_le hn hkept.size_le)).trans (hkept.kept n hn)

theorem Holds.mono {low low' : Nat} (h : Holds graph nodes low) (hlow : low ≤ low') :
    Holds graph nodes low' :=
  fun n hn => h n (Nat.le_trans hlow hn)

theorem Holds.pushed {node : Node} (h : Holds graph (nodes.push node) nodes.size) :
    graph[nodes.size]? = some node := by
  rw [h nodes.size (Nat.le_refl _) (by simp), Array.getElem?_push_size]

/-! ### Builders -/

namespace Builder

/-- The nodes that are put in front of another lead to it as the relation leads through texts. -/
structure Realizes (b : Builder) (R : Position → Position → Prop) : Prop where
  keeps : ∀ next nodes, Extends nodes (b next nodes).2
  sound : ∀ {next nodes graph k p r}, Holds graph (b next nodes).2 nodes.size →
    Accepts graph k (b next nodes).1 p r → ∃ q j, R p q ∧ j ≤ k ∧ Accepts graph j next q r
  complete : ∀ {next nodes graph k p q r}, Holds graph (b next nodes).2 nodes.size →
    R p q → Accepts graph k next q r → ∃ j, Accepts graph j (b next nodes).1 p r

/-- Two builders, the second of which is the nearer to the end. -/
def andThen (first second : Builder) : Builder := fun next nodes =>
  let (entry, nodes) := second next nodes
  first entry nodes

variable {a b : Builder}

theorem Realizes.congr (h : b.Realizes R) (hRS : ∀ p q, R p q ↔ S p q) : b.Realizes S where
  keeps := h.keeps
  sound hg hrun := by
    obtain ⟨q, j, hR, hj⟩ := h.sound hg hrun
    exact ⟨q, j, (hRS _ _).mp hR, hj⟩
  complete hg hS := h.complete hg ((hRS _ _).mpr hS)

/-- No node at all. -/
theorem realizes_nothing : Realizes (fun next nodes => (next, nodes)) (· = ·) where
  keeps _ nodes := .refl nodes
  sound {_ _ _ k p _} _ hrun := ⟨p, k, rfl, Nat.le_refl _, hrun⟩
  complete {_ _ _ k _ _ _} _ heq hrun := ⟨k, heq ▸ hrun⟩

/-- One node, all of whose edges lead to the next one. -/
theorem realizes_node {node : Nat → Node}
    (hnode : ∀ next p m q, (node next).Leads p m q ↔ m = next ∧ R p q)
    (haccept : ∀ next, node next ≠ .accept) :
    Realizes (fun next nodes => addNode (node next) nodes) R where
  keeps next nodes := .push nodes (node next)
  sound {next nodes graph k p r} hg hrun := by
    have hentry : graph[nodes.size]? = some (node next) := hg.pushed
    obtain ⟨j, m, q, rfl, edge, rest⟩ := hrun.exists_edge (by simp [addNode, hentry, haccept])
    obtain ⟨rfl, hR⟩ := (hnode _ _ _ _).mp ((edge_iff hentry).mp edge)
    exact ⟨q, j, hR, Nat.le_succ j, rest⟩
  complete {next nodes graph k p q r} hg hR hrun :=
    ⟨k + 1, .step ((edge_iff hg.pushed).mpr ((hnode _ _ _ _).mpr ⟨rfl, hR⟩)) hrun⟩

theorem realizes_andThen (ha : a.Realizes R) (hb : b.Realizes S) :
    (a.andThen b).Realizes fun p q => ∃ middle, R p middle ∧ S middle q where
  keeps next nodes := (hb.keeps next nodes).trans (ha.keeps _ _)
  sound {next nodes graph k p r} hg hrun := by
    have hfirst := hg.mono (hb.keeps next nodes).size_le
    have hsecond := hg.of_extends (ha.keeps _ _)
    obtain ⟨middle, j, hR, hj, hrest⟩ := ha.sound hfirst hrun
    obtain ⟨q, i, hS, hi, hrest⟩ := hb.sound hsecond hrest
    exact ⟨q, i, ⟨middle, hR, hS⟩, Nat.le_trans hi hj, hrest⟩
  complete {next nodes graph k p q r} hg h hrun := by
    obtain ⟨middle, hR, hS⟩ := h
    obtain ⟨j, hrest⟩ := hb.complete (hg.of_extends (ha.keeps _ _)) hS hrun
    exact ha.complete (hg.mono (hb.keeps next nodes).size_le) hR hrest

theorem realizes_copies (hb : b.Realizes R) (count : Nat) :
    Realizes (copies b count) (Times R count) := by
  induction count with
  | zero =>
      refine realizes_nothing.congr fun p q => ⟨fun h => h ▸ .zero, ?_⟩
      rintro ⟨⟩
      rfl
  | succ count ih =>
      refine (realizes_andThen ih hb).congr fun p q => ⟨?_, Times.exists_snoc⟩
      rintro ⟨middle, hmiddle, hlast⟩
      exact hmiddle.snoc hlast

theorem mem_choices {greedy : Bool} {more leave m : Nat} :
    m ∈ choices greedy more leave ↔ m = more ∨ m = leave := by
  cases greedy <;> simp [choices, or_comm]

/-- A run from a choice takes one of its ways. -/
theorem accepts_choice {greedy : Bool} {more leave : Nat}
    (hnode : graph[n]? = some (.branch (choices greedy more leave)))
    (hrun : Accepts graph k n p r) :
    ∃ j, k = j + 1 ∧ (Accepts graph j more p r ∨ Accepts graph j leave p r) := by
  obtain ⟨j, m, q, rfl, edge, rest⟩ := hrun.exists_edge (by simp [hnode])
  obtain ⟨mem, rfl⟩ := (edge_iff hnode).mp edge
  rcases mem_choices.mp mem with rfl | rfl
  · exact ⟨j, rfl, .inl rest⟩
  · exact ⟨j, rfl, .inr rest⟩

theorem accepts_of_choice {greedy : Bool} {more leave : Nat}
    (hnode : graph[n]? = some (.branch (choices greedy more leave)))
    (hrun : Accepts graph k more p r ∨ Accepts graph k leave p r) :
    Accepts graph (k + 1) n p r := by
  rcases hrun with hrun | hrun
  · exact .step ((edge_iff hnode).mpr ⟨mem_choices.mpr (.inl rfl), rfl⟩) hrun
  · exact .step ((edge_iff hnode).mpr ⟨mem_choices.mpr (.inr rfl), rfl⟩) hrun

/-- Either of two ways. -/
theorem realizes_either (ha : a.Realizes R) (hb : b.Realizes S) :
    Realizes (fun next nodes =>
      let (first, nodes) := a next nodes
      let (second, nodes) := b next nodes
      addNode (.branch [first, second]) nodes) fun p q => R p q ∨ S p q where
  keeps next nodes :=
    ((ha.keeps next nodes).trans (hb.keeps next _)).trans (.push _ _)
  sound {next nodes graph k p r} hg hrun := by
    have hfirst := hg.of_extends ((hb.keeps next (a next nodes).2).trans (.push _ _))
    have hsecond := (hg.of_extends (.push _ _)).mono (ha.keeps next nodes).size_le
    have hbranch := hg.mono
      (Nat.le_trans (ha.keeps next nodes).size_le (hb.keeps next (a next nodes).2).size_le)
    obtain ⟨j, m, q, rfl, edge, rest⟩ := hrun.exists_edge (by simp [addNode, hbranch.pushed])
    obtain ⟨mem, rfl⟩ := (edge_iff hbranch.pushed).mp edge
    obtain rfl | rfl : m = (a next nodes).1 ∨ m = (b next (a next nodes).2).1 := by simpa using mem
    · obtain ⟨q, i, hR, hi, hrest⟩ := ha.sound hfirst rest
      exact ⟨q, i, .inl hR, Nat.le_succ_of_le hi, hrest⟩
    · obtain ⟨q, i, hS, hi, hrest⟩ := hb.sound hsecond rest
      exact ⟨q, i, .inr hS, Nat.le_succ_of_le hi, hrest⟩
  complete {next nodes graph k p q r} hg h hrun := by
    have hfirst := hg.of_extends ((hb.keeps next (a next nodes).2).trans (.push _ _))
    have hsecond := (hg.of_extends (.push _ _)).mono (ha.keeps next nodes).size_le
    have hbranch := hg.mono
      (Nat.le_trans (ha.keeps next nodes).size_le (hb.keeps next (a next nodes).2).size_le)
    rcases h with hR | hS
    · obtain ⟨j, hrest⟩ := ha.complete hfirst hR hrun
      exact ⟨j + 1, .step ((edge_iff hbranch.pushed).mpr ⟨by simp, rfl⟩) hrest⟩
    · obtain ⟨j, hrest⟩ := hb.complete hsecond hS hrun
      exact ⟨j + 1, .step ((edge_iff hbranch.pushed).mpr ⟨by simp, rfl⟩) hrest⟩

/-! ### Repetitions -/

theorem keeps_upTo (hb : b.Realizes R) (greedy : Bool) (leave count next : Nat)
    (nodes : Array Node) : Extends nodes (upTo b greedy leave count next nodes).2 := by
  induction count generalizing next nodes with
  | zero => exact .refl nodes
  | succ count ih => exact ((hb.keeps next nodes).trans (.push _ _)).trans (ih _ _)

/-- The last round, the choice before it, and the rounds before the choice. -/
theorem holds_upTo (hb : b.Realizes R) {greedy : Bool} {leave count : Nat}
    (hg : Holds graph (upTo b greedy leave (count + 1) next nodes).2 nodes.size) :
    let (entry, round) := b next nodes
    let choice : Node := .branch (choices greedy entry leave)
    Holds graph round nodes.size ∧ graph[round.size]? = some choice ∧
      Holds graph (upTo b greedy leave count round.size (round.push choice)).2
        (round.push choice).size := by
  have hbody := hb.keeps next nodes
  have hround := hg.of_extends (keeps_upTo hb greedy leave count _ _)
  exact ⟨hround.of_extends (.push _ _), (hround.mono hbody.size_le).pushed,
    hg.mono (Nat.le_trans hbody.size_le (Extends.push _ _).size_le)⟩

/-- The rounds of a repetition with an upper bound lead to its end, or out of it after any round. -/
theorem sound_upTo (hb : b.Realizes R) (greedy : Bool) (leave count : Nat)
    (hg : Holds graph (upTo b greedy leave count next nodes).2 nodes.size)
    (hrun : Accepts graph k (upTo b greedy leave count next nodes).1 p r) :
    ∃ n q j, n ≤ count ∧ Times R n p q ∧ j ≤ k ∧
      (Accepts graph j leave q r ∨ n = count ∧ Accepts graph j next q r) := by
  induction count generalizing next nodes with
  | zero => exact ⟨0, p, k, Nat.le_refl _, .zero, Nat.le_refl _, .inr ⟨rfl, hrun⟩⟩
  | succ count ih =>
      obtain ⟨hround, hchoice, hinner⟩ := holds_upTo hb hg
      obtain ⟨n, q, j, hn, hrounds, hj, hrest⟩ := ih hinner hrun
      rcases hrest with hleave | ⟨rfl, hrest⟩
      · exact ⟨n, q, j, Nat.le_succ_of_le hn, hrounds, hj, .inl hleave⟩
      · obtain ⟨i, rfl, hrest | hleave⟩ := accepts_choice hchoice hrest
        · obtain ⟨q', i', hR, hi', hrest⟩ := hb.sound hround hrest
          exact ⟨n + 1, q', i', Nat.le_refl _, hrounds.snoc hR, by omega, .inr ⟨rfl, hrest⟩⟩
        · exact ⟨n, q, i, Nat.le_succ_of_le hn, hrounds, by omega, .inl hleave⟩

theorem complete_upTo (hb : b.Realizes R) (greedy : Bool) (leave count : Nat)
    (hg : Holds graph (upTo b greedy leave count next nodes).2 nodes.size)
    (hnext : ∀ {k q r}, Accepts graph k leave q r → ∃ j, Accepts graph j next q r) {n : Nat}
    (hn : n ≤ count) (hrounds : Times R n p q)
    (hrun : Accepts graph k leave q r ∨ n = count ∧ Accepts graph k next q r) :
    ∃ j, Accepts graph j (upTo b greedy leave count next nodes).1 p r := by
  induction count generalizing next nodes n q k with
  | zero =>
      obtain rfl : n = 0 := Nat.le_zero.mp hn
      cases hrounds
      exact hrun.elim hnext fun h => ⟨k, h.2⟩
  | succ count ih =>
      obtain ⟨hround, hchoice, hinner⟩ := holds_upTo hb hg
      have hleaves : ∀ {k q r}, Accepts graph k leave q r →
          ∃ j, Accepts graph j (b next nodes).2.size q r :=
        fun hleave => ⟨_, accepts_of_choice hchoice (.inr hleave)⟩
      rcases Nat.lt_or_ge n (count + 1) with hlt | hge
      · have hleave := hrun.resolve_right fun h => by omega
        exact ih hinner hleaves (Nat.le_of_lt_succ hlt) hrounds (.inl hleave)
      · obtain rfl : n = count + 1 := Nat.le_antisymm hn hge
        obtain ⟨middle, hfront, hlast⟩ := hrounds.exists_snoc
        obtain ⟨i, hend⟩ : ∃ j, Accepts graph j next q r := hrun.elim hnext fun h => ⟨k, h.2⟩
        obtain ⟨j, hbody⟩ := hb.complete hround hlast hend
        exact ih hinner hleaves (Nat.le_refl _) hfront
          (.inr ⟨rfl, accepts_of_choice hchoice (.inl hbody)⟩)

/-- At most so many rounds. -/
theorem realizes_upTo (hb : b.Realizes R) (greedy : Bool) (count : Nat) :
    Realizes (fun next nodes => upTo b greedy next count next nodes)
      fun p q => ∃ n, n ≤ count ∧ Times R n p q where
  keeps next nodes := keeps_upTo hb greedy next count next nodes
  sound hg hrun := by
    obtain ⟨n, q, j, hn, hrounds, hj, hrest⟩ := sound_upTo hb greedy _ count hg hrun
    exact ⟨q, j, ⟨n, hn, hrounds⟩, hj, hrest.elim id And.right⟩
  complete hg h hrun := by
    obtain ⟨n, hn, hrounds⟩ := h
    exact complete_upTo hb greedy _ count hg (fun h => ⟨_, h⟩) hn hrounds (.inl hrun)

section Loops

variable (hb : b.Realizes R) {greedy : Bool}

include hb

/-- The choice of a loop, and the body that leads back to it. -/
theorem holds_loopOf (hg : Holds graph (loopOf b greedy next nodes).2.2 nodes.size) :
    graph[nodes.size]? = some (.branch (choices greedy (loopOf b greedy next nodes).1 next)) ∧
      Holds graph (b nodes.size (nodes.push (.branch []))).2 (nodes.push (.branch [])).size := by
  have hsize := (hb.keeps nodes.size (nodes.push (.branch []))).size_le
  rw [Array.size_push] at hsize
  constructor
  · have hlt : nodes.size < (b nodes.size (nodes.push (.branch []))).2.size := by omega
    rw [hg nodes.size (Nat.le_refl _) (by simpa [loopOf, addNode] using hlt)]
    simp [loopOf, addNode, hlt]
  · intro n hlow hn
    rw [Array.size_push] at hlow
    rw [hg n (by omega) (by simpa [loopOf, addNode] using hn)]
    have hne : nodes.size ≠ n := by omega
    simp [loopOf, addNode, hne]

theorem keeps_loopOf (greedy : Bool) (next : Nat) (nodes : Array Node) :
    Extends nodes (loopOf b greedy next nodes).2.2 := by
  have hbody := (Extends.push nodes (.branch [])).trans (hb.keeps nodes.size _)
  refine ⟨by simpa [loopOf, addNode] using hbody.size_le, fun n hn => ?_⟩
  have hne : nodes.size ≠ n := by omega
  rw [← hbody.kept n hn]
  simp [loopOf, addNode, hne]

/-- From the choice any number of rounds may be taken. -/
theorem sound_again (hg : Holds graph (loopOf b greedy next nodes).2.2 nodes.size)
    (hrun : Accepts graph k nodes.size p r) :
    ∃ n q j, Times R n p q ∧ j ≤ k ∧ Accepts graph j next q r := by
  obtain ⟨hchoice, hbody⟩ := holds_loopOf hb hg
  induction k using Nat.strongRecOn generalizing p with
  | ind k ih =>
      obtain ⟨j, rfl, hround | hleave⟩ := accepts_choice hchoice hrun
      · obtain ⟨q, i, hR, hi, hagain⟩ := hb.sound hbody hround
        obtain ⟨n, q', i', hrounds, hi', hrest⟩ := ih i (by omega) hagain
        exact ⟨n + 1, q', i', .succ hR hrounds, by omega, hrest⟩
      · exact ⟨0, p, j, .zero, Nat.le_succ j, hleave⟩

theorem complete_again (hg : Holds graph (loopOf b greedy next nodes).2.2 nodes.size) {n : Nat}
    (hrounds : Times R n p q) (hrun : Accepts graph k next q r) :
    ∃ j, Accepts graph j nodes.size p r := by
  obtain ⟨hchoice, hbody⟩ := holds_loopOf hb hg
  induction hrounds with
  | zero => exact ⟨k + 1, accepts_of_choice hchoice (.inr hrun)⟩
  | succ hR _ ih =>
      obtain ⟨j, hagain⟩ := ih hrun
      obtain ⟨i, hround⟩ := hb.complete hbody hR hagain
      exact ⟨i + 1, accepts_of_choice hchoice (.inl hround)⟩

/-- One round and any number of others. -/
theorem realizes_plus (greedy : Bool) :
    Realizes (fun next nodes =>
      let (entry, _, nodes) := loopOf b greedy next nodes
      (entry, nodes)) fun p q => ∃ n, Times R (n + 1) p q where
  keeps next nodes := keeps_loopOf hb greedy next nodes
  sound hg hrun := by
    obtain ⟨-, hbody⟩ := holds_loopOf hb hg
    obtain ⟨q, i, hR, hi, hagain⟩ := hb.sound hbody hrun
    obtain ⟨n, q', j, hrounds, hj, hrest⟩ := sound_again hb hg hagain
    exact ⟨q', j, ⟨n, .succ hR hrounds⟩, Nat.le_trans hj hi, hrest⟩
  complete hg h hrun := by
    obtain ⟨-, hbody⟩ := holds_loopOf hb hg
    obtain ⟨n, hrounds⟩ := h
    cases hrounds with
    | succ hR hrest =>
        obtain ⟨j, hagain⟩ := complete_again hb hg hrest hrun
        exact hb.complete hbody hR hagain

/-- Any number of rounds. -/
theorem realizes_star (nullable greedy : Bool) :
    Realizes (starOf b nullable greedy) fun p q => ∃ n, Times R n p q where
  keeps next nodes := by
    cases nullable with
    | false => exact keeps_loopOf hb greedy next nodes
    | true => exact (keeps_loopOf hb greedy next nodes).trans (.push _ _)
  sound {next nodes graph k p r} hg hrun := by
    cases nullable with
    | false =>
        obtain ⟨n, q, j, hrounds, hj, hrest⟩ := sound_again hb hg hrun
        exact ⟨q, j, ⟨n, hrounds⟩, hj, hrest⟩
    | true =>
        have hloop := hg.of_extends (.push _ _)
        have hchoice := hg.mono (keeps_loopOf hb greedy next nodes).size_le
        obtain ⟨j, rfl, hround | hleave⟩ := accepts_choice hchoice.pushed hrun
        · obtain ⟨q, i, ⟨n, hrounds⟩, hi, hrest⟩ := (realizes_plus hb greedy).sound hloop hround
          exact ⟨q, i, ⟨n + 1, hrounds⟩, Nat.le_succ_of_le hi, hrest⟩
        · exact ⟨p, j, ⟨0, .zero⟩, Nat.le_succ j, hleave⟩
  complete {next nodes graph k p q r} hg h hrun := by
    obtain ⟨n, hrounds⟩ := h
    cases nullable with
    | false => exact complete_again hb hg hrounds hrun
    | true =>
        have hloop := hg.of_extends (.push _ _)
        have hchoice := hg.mono (keeps_loopOf hb greedy next nodes).size_le
        cases n with
        | zero =>
            cases hrounds
            exact ⟨k + 1, accepts_of_choice hchoice.pushed (.inr hrun)⟩
        | succ n =>
            obtain ⟨j, hround⟩ := (realizes_plus hb greedy).complete hloop ⟨n, hrounds⟩ hrun
            exact ⟨j + 1, accepts_of_choice hchoice.pushed (.inl hround)⟩

end Loops

end Builder

/-! ### Expressions -/

open Builder

theorem realizes_note (slot : Nat) :
    Realizes (fun next nodes => addNode (.note slot next) nodes) (· = ·) :=
  realizes_node (fun _ _ _ _ => Iff.rfl) (by simp)

theorem realizes_look (l : Look) :
    Realizes (fun next nodes => addNode (.check l next) nodes) (Expr.look l).Matches :=
  realizes_node (fun _ _ _ _ => Iff.rfl) (by simp)

theorem realizes_set (chars : CharSet) :
    Realizes (fun next nodes => addNode (.read chars next) nodes) (Expr.set chars).Matches :=
  realizes_node (fun _ _ _ _ => Iff.rfl) (by simp)

section Bounds

variable {b : Builder} (hb : b.Realizes R)

include hb

/-- Rounds with a lower bound, and no upper one. -/
theorem realizes_atLeast (low : Nat) (greedy : Bool) :
    Realizes ((copies b low).andThen fun next nodes =>
      let (entry, _, nodes) := loopOf b greedy next nodes
      (entry, nodes)) fun p q => ∃ n, low + 1 ≤ n ∧ Times R n p q := by
  refine (realizes_andThen (realizes_copies hb low) (realizes_plus hb greedy)).congr
    fun p q => ⟨?_, ?_⟩
  · rintro ⟨middle, hfirst, n, hrest⟩
    exact ⟨low + (n + 1), by omega, hfirst.append hrest⟩
  · rintro ⟨n, hn, hrounds⟩
    obtain ⟨n, rfl⟩ := Nat.exists_eq_add_of_le hn
    rw [Nat.add_assoc, Nat.add_comm 1] at hrounds
    obtain ⟨middle, hfirst, hrest⟩ := hrounds.exists_append
    exact ⟨middle, hfirst, n, hrest⟩

/-- Rounds with two bounds. -/
theorem realizes_between (low high : Nat) (greedy : Bool) :
    Realizes ((copies b low).andThen fun next nodes =>
      upTo b greedy next (high - low) next nodes)
      fun p q => ∃ n, low ≤ n ∧ n ≤ max low high ∧ Times R n p q := by
  refine (realizes_andThen (realizes_copies hb low) (realizes_upTo hb greedy (high - low))).congr
    fun p q => ⟨?_, ?_⟩
  · rintro ⟨middle, hfirst, n, hn, hrest⟩
    exact ⟨low + n, by omega, by omega, hfirst.append hrest⟩
  · rintro ⟨n, hlow, hhigh, hrounds⟩
    obtain ⟨n, rfl⟩ := Nat.exists_eq_add_of_le hlow
    obtain ⟨middle, hfirst, hrest⟩ := hrounds.exists_append
    exact ⟨middle, hfirst, n, by omega, hrest⟩

end Bounds

/-- The nodes of an expression lead to the node after it as the expression leads through texts. -/
theorem realizes_build (e : Expr) : Realizes (build e) e.Matches := by
  induction e with
  | empty => exact realizes_nothing
  | set chars => exact realizes_set chars
  | look l => exact realizes_look l
  | capture i e ih =>
      refine (realizes_andThen (realizes_note (2 * i)) (realizes_andThen ih
        (realizes_note (2 * i + 1)))).congr fun p q => ?_
      simp [Expr.Matches]
  | cat a b iha ihb => exact realizes_andThen iha ihb
  | alt a b iha ihb => exact realizes_either iha ihb
  | «repeat» low high greedy e ih =>
      cases high with
      | none =>
          cases low with
          | zero =>
              refine (realizes_star ih e.nullable greedy).congr fun p q => ?_
              simp [Expr.Matches]
          | succ low =>
              refine (realizes_atLeast ih low greedy).congr fun p q => ?_
              simp [Expr.Matches]
      | some high =>
          have hbuild : build (.repeat low (some high) greedy e) = (copies (build e) low).andThen
              fun next nodes => upTo (build e) greedy next (high - low) next nodes := by
            cases low <;> rfl
          rw [hbuild]
          refine (realizes_between ih low high greedy).congr fun p q => ?_
          simp [Expr.Matches]

/-- The program of an expression accepts what the expression matches. -/
theorem accepts_ofExpr_iff (e : Expr) :
    (∃ k, Accepts (Program.ofExpr e).nodes k (Program.ofExpr e).start p r) ↔ e.Matches p r := by
  have hbuild := realizes_build e
  have hgraph : Holds (build e 0 #[.accept]).2 (build e 0 #[.accept]).2 (#[Node.accept]).size :=
    fun _ _ _ => rfl
  have hend : (build e 0 #[.accept]).2[0]? = some .accept :=
    (hbuild.keeps 0 #[.accept]).kept 0 (by simp)
  constructor
  · rintro ⟨k, hrun⟩
    obtain ⟨q, j, hmatch, -, hrest⟩ := hbuild.sound hgraph hrun
    cases hrest with
    | accept => exact hmatch
    | step edge => exact ((edge_iff hend).mp edge).elim
  · intro hmatch
    exact hbuild.complete hgraph hmatch (.accept hend)

end HttpGateway.Regex
