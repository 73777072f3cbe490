import HttpGateway.Proofs.Run
import HttpGateway.RateLimit.Bucket
import Mathlib

/-!
# The tokens of one bucket

A bucket is asked for tokens again and again, always with the same rate and capacity. In exact
arithmetic, what it holds stays within its capacity, and what it grants in any window of time is
paid for by one full bucket and by what flows in during the window. A granted request may be short
of its token by the tolerance, and by no more.
-/

namespace HttpGateway.Bucket

/-- A request for a token, and the answer. -/
structure Turn where
  now : Nat
  verdict : Verdict

def Turn.Step {τ : Type} [TokenArithmetic τ] (rate burst : Nat) (b : Option (BucketState τ))
    (a : Turn) (b' : Option (BucketState τ)) : Prop :=
  ∃ state, take b a.now rate burst = (state, a.verdict) ∧ b' = some state

def Turn.grantedSince (s : Nat) (a : Turn) : Bool := a.verdict.allowed && s ≤ a.now

def Turn.grantedWithin (s t : Nat) (a : Turn) : Bool := a.grantedSince s && a.now ≤ t

/-- The least that a granted request pays. -/
def price : Rat := 1 - 1 / 1000000

/-- What a bucket gains between two moments. -/
def inflow (rate s t : Nat) : Rat := ((t - s : Nat) : Rat) / 1000000000 * rate

variable {rate burst s t u now : Nat} {b b' : Option (BucketState Rat)} {a : Turn}

theorem price_nonneg : 0 ≤ price := by
  norm_num [price]

theorem inflow_nonneg : 0 ≤ inflow rate s t := by
  unfold inflow
  positivity

theorem inflow_add (hst : s ≤ t) (htu : t ≤ u) :
    inflow rate s t + inflow rate t u = inflow rate s u := by
  simp only [inflow, Nat.cast_sub hst, Nat.cast_sub htu, Nat.cast_sub (hst.trans htu)]
  ring

theorem inflow_mono (htu : t ≤ u) : inflow rate s t ≤ inflow rate s u := by
  unfold inflow
  gcongr

theorem filled_none : filled none now rate burst = (burst : Rat) := rfl

theorem filled_some (state : BucketState Rat) : filled (some state) now rate burst =
    min (state.tokens + inflow rate state.lastRefill now) burst :=
  (min_def ..).symm

theorem take_of_enough (h : 1 ≤ filled b now rate burst + 1 / 1000000) :
    take b now rate burst = (⟨max (filled b now rate burst - 1) 0, now⟩,
      ⟨true, ⌊max (filled b now rate burst - 1) 0 + 1 / 1000000⌋⟩) := by
  rw [max_def]
  exact if_pos (decide_eq_true h)

theorem take_of_lack (h : ¬1 ≤ filled b now rate burst + 1 / 1000000) :
    take b now rate burst = (⟨max (filled b now rate burst) 0, now⟩,
      ⟨false, ⌊filled b now rate burst - 1⌋⟩) := by
  rw [max_def]
  exact if_neg (ne_true_of_eq_false (decide_eq_false h))

/-- What one turn can come to: a token is paid, which may be short by the tolerance, or nothing is
taken. -/
theorem Turn.Step.pays (h : Turn.Step rate burst b a b') (hburst : 1 ≤ burst)
    (hpos : 0 ≤ filled b a.now rate burst) (hcap : filled b a.now rate burst ≤ burst) :
    ∃ left : Rat, b' = some ⟨left, a.now⟩ ∧ 0 ≤ left ∧
      (a.verdict.allowed = true ∧ left + price ≤ filled b a.now rate burst ∧
          0 ≤ a.verdict.remaining ∧ a.verdict.remaining ≤ burst - 1 ∨
        a.verdict.allowed = false ∧ left = filled b a.now rate burst ∧
          a.verdict.remaining = -1) := by
  obtain ⟨state, htake, rfl⟩ := h
  have hone : (1 : Rat) ≤ burst := by exact_mod_cast hburst
  by_cases henough : 1 ≤ filled b a.now rate burst + 1 / 1000000
  · rw [take_of_enough henough] at htake
    obtain ⟨rfl, hverdict⟩ := Prod.mk.inj htake
    rw [← hverdict]
    have hleft : max (filled b a.now rate burst - 1) 0 ≤ (burst : Rat) - 1 :=
      max_le (by linarith) (by linarith)
    have hnonneg : (0 : Rat) ≤ max (filled b a.now rate burst - 1) 0 := le_max_right ..
    refine ⟨_, rfl, hnonneg, .inl ⟨rfl, ?_, ?_, ?_⟩⟩
    · rcases max_choice (filled b a.now rate burst - 1) 0 with hmax | hmax <;>
        rw [hmax, price] <;> linarith
    · exact Int.floor_nonneg.mpr (by linarith)
    · -- The tolerance does not reach up to the next whole token.
      refine Int.lt_add_one_iff.mp (Int.floor_lt.mpr ?_)
      push_cast
      linarith
  · rw [take_of_lack henough, max_eq_left hpos] at htake
    obtain ⟨rfl, hverdict⟩ := Prod.mk.inj htake
    rw [← hverdict]
    refine ⟨_, rfl, hpos, .inr ⟨rfl, rfl, Int.floor_eq_iff.mpr ?_⟩⟩
    push_cast
    exact ⟨by linarith, by linarith⟩

/-- The books of a bucket since some moment: what it granted from then on and what it holds are
covered by one full bucket and what flowed in. -/
structure Solvent (rate burst s : Nat) (turns : List Turn) (state : BucketState Rat) : Prop where
  nonneg : 0 ≤ state.tokens
  le_burst : state.tokens ≤ burst
  last : ∃ a ∈ turns, a.now = state.lastRefill
  latest : ∀ a ∈ turns, a.now ≤ state.lastRefill
  covered : (turns.countP (Turn.grantedSince s) : Rat) * price + state.tokens ≤
    burst + inflow rate s state.lastRefill

/-- The books of a bucket that may not have been used yet. -/
def SolventOrNew (rate burst s : Nat) (turns : List Turn) : Option (BucketState Rat) → Prop
  | none => turns = []
  | some state => Solvent rate burst s turns state

variable {turns : List Turn}

theorem countP_grantedSince_eq_zero (h : ∀ a ∈ turns, a.now < s) :
    turns.countP (Turn.grantedSince s) = 0 := by
  refine List.countP_eq_zero.mpr fun a ha => ?_
  simp [Turn.grantedSince, h a ha]

theorem countP_snoc_le (p : Turn → Bool) : (turns ++ [a]).countP p ≤ turns.countP p + 1 := by
  rw [List.countP_append, List.countP_singleton]
  split <;> omega

theorem countP_snoc_of_not {p : Turn → Bool} (h : p a = false) :
    (turns ++ [a]).countP p = turns.countP p := by
  rw [List.countP_append, List.countP_singleton, h, if_neg Bool.false_ne_true, Nat.add_zero]

theorem Solvent.lastRefill_le {state : BucketState Rat} (h : Solvent rate burst s turns state)
    (hle : ∀ a ∈ turns, a.now ≤ t) : state.lastRefill ≤ t := by
  obtain ⟨a, ha, hlast⟩ := h.last
  exact hlast ▸ hle a ha

/-- The books when the bucket is next asked, before a token is taken. -/
theorem SolventOrNew.filled (h : SolventOrNew rate burst s turns b)
    (hnow : ∀ a ∈ turns, a.now ≤ now) :
    0 ≤ filled b now rate burst ∧ filled b now rate burst ≤ burst ∧
      (turns.countP (Turn.grantedSince s) : Rat) * price + filled b now rate burst ≤
        burst + inflow rate s now := by
  have hburst : (0 : Rat) ≤ burst := Nat.cast_nonneg _
  cases b with
  | none =>
      obtain rfl : turns = [] := h
      rw [filled_none, List.countP_nil, Nat.cast_zero, zero_mul, zero_add]
      exact ⟨hburst, le_rfl, le_add_of_nonneg_right inflow_nonneg⟩
  | some state =>
      have hrefill : state.lastRefill ≤ now := Solvent.lastRefill_le h hnow
      have hgain : 0 ≤ inflow rate state.lastRefill now := inflow_nonneg
      rw [filled_some]
      refine ⟨le_min (add_nonneg h.nonneg hgain) hburst, min_le_right .., ?_⟩
      by_cases hs : s ≤ state.lastRefill
      · have hsum : inflow rate s state.lastRefill + inflow rate state.lastRefill now =
            inflow rate s now := inflow_add hs hrefill
        have hmin := min_le_left (state.tokens + inflow rate state.lastRefill now) (burst : Rat)
        have hcovered := h.covered
        linarith
      · -- All turns lie before the moment from which is counted, and the bucket is at most full.
        have hnone : turns.countP (Turn.grantedSince s) = 0 :=
          countP_grantedSince_eq_zero fun a ha => (h.latest a ha).trans_lt (Nat.lt_of_not_le hs)
        rw [hnone, Nat.cast_zero, zero_mul, zero_add]
        exact (min_le_right ..).trans (le_add_of_nonneg_right inflow_nonneg)

theorem SolventOrNew.step (h : SolventOrNew rate burst s turns b) (hburst : 1 ≤ burst)
    (hstep : Turn.Step rate burst b a b') (hnow : ∀ x ∈ turns, x.now ≤ a.now) :
    SolventOrNew rate burst s (turns ++ [a]) b' := by
  obtain ⟨hpos, hcap, hcovered⟩ := h.filled hnow
  obtain ⟨left, rfl, hleft, hcase⟩ := hstep.pays hburst hpos hcap
  have hlatest : ∀ x ∈ turns ++ [a], x.now ≤ a.now :=
    List.forall_mem_append.mpr ⟨hnow, List.forall_mem_singleton.mpr le_rfl⟩
  have hprice := price_nonneg
  -- A token that is granted leaves the bucket and enters the count; a denial moves nothing.
  rcases hcase with ⟨-, hpaid, -⟩ | ⟨hdenied, rfl, -⟩
  · have hcount : ((turns ++ [a]).countP (Turn.grantedSince s) : Rat) ≤
        turns.countP (Turn.grantedSince s) + 1 := by exact_mod_cast countP_snoc_le _
    have hspent := mul_le_mul_of_nonneg_right hcount hprice
    exact ⟨hleft, by linarith, ⟨a, by simp, rfl⟩, hlatest, by linarith⟩
  · have hcount : (turns ++ [a]).countP (Turn.grantedSince s) =
        turns.countP (Turn.grantedSince s) :=
      countP_snoc_of_not (by rw [Turn.grantedSince, hdenied, Bool.false_and])
    exact ⟨hleft, hcap, ⟨a, by simp, rfl⟩, hlatest, hcount ▸ hcovered⟩

/-- A bucket that starts full keeps its books in order. -/
theorem solventOrNew_of_run (run : Run (Turn.Step rate burst) none turns b) (hburst : 1 ≤ burst)
    (hsorted : turns.Pairwise fun x y => x.now ≤ y.now) (s : Nat) :
    SolventOrNew rate burst s turns b := by
  induction run with
  | nil => exact rfl
  | snoc _ hstep ih =>
      obtain ⟨hturns, -, hnow⟩ := List.pairwise_append.mp hsorted
      exact (ih hturns).step hburst hstep fun x hx => hnow x hx _ List.mem_cons_self

/-- What a bucket holds stays within its capacity. -/
theorem tokens_of_run {state : BucketState Rat}
    (run : Run (Turn.Step rate burst) none turns (some state)) (hburst : 1 ≤ burst)
    (hsorted : turns.Pairwise fun x y => x.now ≤ y.now) :
    0 ≤ state.tokens ∧ state.tokens ≤ burst :=
  have hbooks : Solvent rate burst 0 turns state := solventOrNew_of_run run hburst hsorted 0
  ⟨hbooks.nonneg, hbooks.le_burst⟩

/-- A bucket that grants a token tells what is left, and one that does not tells that none is. -/
theorem remaining_of_run (run : Run (Turn.Step rate burst) none turns b) (hburst : 1 ≤ burst)
    (hsorted : turns.Pairwise fun x y => x.now ≤ y.now) :
    ∀ a ∈ turns, if a.verdict.allowed then 0 ≤ a.verdict.remaining ∧ a.verdict.remaining ≤ burst - 1
      else a.verdict.remaining = -1 := by
  induction run with
  | nil => exact fun a ha => absurd ha List.not_mem_nil
  | @snoc turns a b b' run hstep ih =>
      obtain ⟨hturns, -, hnow⟩ := List.pairwise_append.mp hsorted
      refine List.forall_mem_append.mpr ⟨ih hturns, List.forall_mem_singleton.mpr ?_⟩
      obtain ⟨hpos, hcap, -⟩ := (solventOrNew_of_run run hburst hturns 0).filled
        fun x hx => hnow x hx a List.mem_cons_self
      obtain ⟨left, -, -, ⟨hallowed, -, hremaining⟩ | ⟨hdenied, -, hremaining⟩⟩ :=
        hstep.pays hburst hpos hcap
      · rw [if_pos hallowed]
        exact hremaining
      · rw [if_neg (by simp [hdenied])]
        exact hremaining

/-- What is granted in a window of time is paid for by one full bucket and by what flows in. -/
theorem granted_of_run (run : Run (Turn.Step rate burst) none turns b) (hburst : 1 ≤ burst)
    (hsorted : turns.Pairwise fun x y => x.now ≤ y.now) (s t : Nat) :
    (turns.countP (Turn.grantedWithin s t) : Rat) * price ≤
      burst + inflow rate s t := by
  induction run with
  | nil =>
      rw [List.countP_nil, Nat.cast_zero, zero_mul]
      exact add_nonneg (Nat.cast_nonneg _) inflow_nonneg
  | @snoc turns a b b' run hstep ih =>
      obtain ⟨hturns, -, hnow⟩ := List.pairwise_append.mp hsorted
      by_cases hlate : a.now ≤ t
      · -- The window has not closed yet, so its end does not matter.
        have hbooks := solventOrNew_of_run (run.snoc hstep) hburst hsorted s
        obtain ⟨state, -, rfl⟩ := hstep
        have hopen : state.lastRefill ≤ t := Solvent.lastRefill_le hbooks
          (List.forall_mem_append.mpr ⟨fun x hx => (hnow x hx a List.mem_cons_self).trans hlate,
            List.forall_mem_singleton.mpr hlate⟩)
        have hcount : ((turns ++ [a]).countP (Turn.grantedWithin s t) : Rat) ≤
            (turns ++ [a]).countP (Turn.grantedSince s) :=
          Nat.cast_le.mpr (List.countP_mono_left fun x _ hx => (Bool.and_eq_true_iff.mp hx).1)
        calc ((turns ++ [a]).countP (Turn.grantedWithin s t) : Rat) * price
            ≤ (turns ++ [a]).countP (Turn.grantedSince s) * price :=
              mul_le_mul_of_nonneg_right hcount price_nonneg
          _ ≤ burst + inflow rate s state.lastRefill :=
              (le_add_of_nonneg_right hbooks.nonneg).trans hbooks.covered
          _ ≤ burst + inflow rate s t := by
              gcongr
              exact inflow_mono hopen
      · -- The window has closed before this turn, which is not counted.
        rw [countP_snoc_of_not (by simp [Turn.grantedWithin, hlate])]
        exact ih hturns

end HttpGateway.Bucket
