import HttpGateway.Proofs.RateLimit.Checks
import Mathlib

/-!
# Interleaved use of the buckets

Any number of callers use a store of buckets at once. Each has one update to make, in one or two
steps: it updates the bucket if there is one; if not, it comes back later and updates the bucket
that another caller has made in the meantime, or makes it. What the store and the callers come to is
what the updates come to one after the other, in the order of the steps that made them. So no token
is lost, and none is granted twice.

The sequential `modify` is one of these runs, and so is a check: `exists_run_modify`,
`exists_run_check`.
-/

namespace HttpGateway.BucketStore

/-- What a caller wants to be done to the bucket with this name, at whatever moment it is done. -/
structure Errand (τ : Type) where
  name : String
  update : Nat → Update τ

/-- To ask for a token. -/
def Errand.check {τ : Type} [TokenArithmetic τ] (name : String) (rate burst : Nat) : Errand τ :=
  ⟨name, fun now previous => Bucket.take previous now rate burst⟩

/-- Where a caller stands. -/
inductive Caller where
  | arrived
  | missed
  | answered (v : Verdict)

def Caller.verdict? : Caller → Option Verdict
  | .answered v => some v
  | _ => none

/-- An update as it is made: for whom and when, what the bucket was, and what is answered. -/
structure Applied (τ : Type) where
  caller : Nat
  now : Nat
  before : Option (BucketState τ)
  verdict : Verdict

/-- Whose turn it is, and when. -/
def Applied.turn {τ : Type} (a : Applied τ) : Nat × Nat := (a.caller, a.now)

/-- What happens at one moment: a caller finds its bucket and updates it, or it finds none, or it
comes back and updates or makes it. -/
inductive Event (τ : Type) where
  | hit (a : Applied τ)
  | miss (c : Nat)
  | settle (a : Applied τ)

def Event.applied? {τ : Type} : Event τ → Option (Applied τ)
  | .hit a | .settle a => some a
  | .miss _ => none

/-- A store and the callers that use it. -/
structure Traffic (τ : Type) where
  store : BucketStore τ
  callers : Nat → Caller := fun _ => .arrived

variable {τ : Type}

/-- A caller moves on, and leaves this store behind. -/
def Traffic.move (t : Traffic τ) (c : Nat) (store : BucketStore τ) (x : Caller) : Traffic τ :=
  ⟨store, Function.update t.callers c x⟩

@[simp] theorem Traffic.move_move (t : Traffic τ) (c : Nat) (k k' : BucketStore τ) (x y : Caller) :
    (t.move c k x).move c k' y = t.move c k' y := by
  simp [move]

theorem Traffic.callers_move_self (t : Traffic τ) (c : Nat) (k : BucketStore τ) (x : Caller) :
    (t.move c k x).callers c = x := Function.update_self ..

theorem Traffic.callers_move_of_ne (t : Traffic τ) {c d : Nat} (k : BucketStore τ) (x : Caller)
    (hd : d ≠ c) : (t.move c k x).callers d = t.callers d := Function.update_of_ne hd ..

/-- One step of one caller, each of which has its errand. -/
inductive Step (plan : Nat → Errand τ) : Traffic τ → Event τ → Traffic τ → Prop
  | hit {t a k} (hc : t.callers a.caller = .arrived)
      (hbefore : a.before = t.store.get? (plan a.caller).name)
      (h : t.store.updateExisting? (plan a.caller).name ((plan a.caller).update a.now) =
        some (k, a.verdict)) :
      Step plan t (.hit a) (t.move a.caller k (.answered a.verdict))
  | miss {t c} (hc : t.callers c = .arrived) (hnone : t.store.get? (plan c).name = none) :
      Step plan t (.miss c) (t.move c t.store .missed)
  | settle {t a k} (hc : t.callers a.caller = .missed)
      (hbefore : a.before = t.store.get? (plan a.caller).name)
      (h : t.store.updateOrCreate (plan a.caller).name ((plan a.caller).update a.now) =
        (k, a.verdict)) :
      Step plan t (.settle a) (t.move a.caller k (.answered a.verdict))

/-- The errands of callers done one after the other. -/
def serve (plan : Nat → Errand τ) :
    BucketStore τ → (turns : List (Nat × Nat)) → BucketStore τ × List (Applied τ)
  | store, [] => (store, [])
  | store, (c, now) :: rest =>
    let next := store.modify (plan c).name ((plan c).update now)
    let later := serve plan next.1 rest
    (later.1, ⟨c, now, store.get? (plan c).name, next.2⟩ :: later.2)

theorem updateExisting?_eq_some {store k : BucketStore τ} {name : String} {update : Update τ}
    {v : Verdict} (h : store.updateExisting? name update = some (k, v)) :
    store.modify name update = (k, v) := by
  rw [modify, h, Option.getD_some]

theorem updateOrCreate_eq_modify (store : BucketStore τ) (name : String) (update : Update τ) :
    store.updateOrCreate name update = store.modify name update :=
  (store.modify_eq name update).symm

/-! ### The sequential reading is a run -/

section

variable {plan : Nat → Errand τ}

/-- At any moment a caller that has not been answered can go on alone, and it comes to what a
sequential use of the store comes to. -/
theorem exists_run_modify (t : Traffic τ) (c now : Nat) (hc : (t.callers c).verdict? = none) :
    let made := t.store.modify (plan c).name ((plan c).update now)
    ∃ es, Run (Step plan) t es (t.move c made.1 (.answered made.2)) := by
  intro made
  have hsettle (t : Traffic τ) (hmissed : t.callers c = .missed) :=
    Step.settle (a := ⟨c, now, t.store.get? (plan c).name, _⟩) hmissed rfl
      (t.store.updateOrCreate_eq_modify (plan c).name ((plan c).update now))
  cases hcaller : t.callers c with
  | arrived =>
      cases hfound : t.store.updateExisting? (plan c).name ((plan c).update now) with
      | some next =>
          obtain ⟨k, v⟩ := next
          have hmade : made = (k, v) := updateExisting?_eq_some hfound
          rw [hmade]
          let a : Applied τ := ⟨c, now, t.store.get? (plan c).name, v⟩
          exact ⟨[.hit a], .single (.hit hcaller rfl hfound)⟩
      | none =>
          have hnone : t.store.get? (plan c).name = none := by simpa [updateExisting?] using hfound
          have hlast := hsettle (t.move c t.store .missed) (t.callers_move_self c _ _)
          rw [Traffic.move_move] at hlast
          exact ⟨_, (Run.single (.miss hcaller hnone)).snoc hlast⟩
  | missed => exact ⟨_, .single (hsettle t hcaller)⟩
  | answered v =>
      rw [hcaller] at hc
      cases hc

/-- A check of a limiter in memory is a run of the caller that has it as its errand. -/
theorem exists_run_check [TokenArithmetic τ] (t : Traffic τ) (c now : Nat) {name : String}
    {rate burst : Nat} (hplan : plan c = .check name rate burst)
    (hc : (t.callers c).verdict? = none) (hburst : burst ≠ 0) :
    ∃ es k v, (RateLimiter.buckets t.store).check now name rate burst = (.ok v, .buckets k) ∧
      Run (Step plan) t es (t.move c k (.answered v)) := by
  obtain ⟨es, run⟩ : ∃ es, Run (Step plan) t es _ := exists_run_modify t c now hc
  rw [hplan] at run
  exact ⟨es, _, _, if_neg hburst, run⟩

/-! ### What a step does -/

/-- A step either makes the update of a caller that has not been answered, just as a sequential use
of the store does, or leaves the store alone. -/
theorem Step.cases {t t' : Traffic τ} {e : Event τ} (h : Step plan t e t') :
    (∃ c, e.applied? = none ∧ t.callers c = .arrived ∧ t' = t.move c t.store .missed) ∨
      ∃ a k, e.applied? = some a ∧ (t.callers a.caller).verdict? = none ∧
        a.before = t.store.get? (plan a.caller).name ∧
        t.store.modify (plan a.caller).name ((plan a.caller).update a.now) = (k, a.verdict) ∧
        t' = t.move a.caller k (.answered a.verdict) := by
  cases h with
  | miss hc _ => exact .inl ⟨_, rfl, hc, rfl⟩
  | hit hc hbefore h =>
      exact .inr ⟨_, _, rfl, by rw [hc]; rfl, hbefore, updateExisting?_eq_some h, rfl⟩
  | settle hc hbefore h =>
      rw [updateOrCreate_eq_modify] at h
      exact .inr ⟨_, _, rfl, by rw [hc]; rfl, hbefore, h, rfl⟩

/-! ### Whole runs -/

theorem serve_concat (plan : Nat → Errand τ) (store : BucketStore τ) (turns : List (Nat × Nat))
    (c now : Nat) :
    let before := serve plan store turns
    let next := before.1.modify (plan c).name ((plan c).update now)
    serve plan store (turns ++ [(c, now)]) =
      (next.1, before.2 ++ [⟨c, now, before.1.get? (plan c).name, next.2⟩]) := by
  induction turns generalizing store with
  | nil => rfl
  | cons turn rest ih =>
      obtain ⟨d, s⟩ := turn
      simp only [List.cons_append, serve, ih]

/-- That these updates have been made, and what has become of the store and the callers: the same
as if the callers had come one after the other. -/
structure Served (plan : Nat → Errand τ) (store : BucketStore τ) (applied : List (Applied τ))
    (t : Traffic τ) : Prop where
  serial : serve plan store (applied.map Applied.turn) = (t.store, applied)
  once : (applied.map Applied.caller).Nodup
  answered : ∀ c v, (t.callers c).verdict? = some v ↔ ∃ a ∈ applied, a.caller = c ∧ a.verdict = v

section

variable {store : BucketStore τ} {applied : List (Applied τ)} {t t' : Traffic τ}

/-- The update of a caller that has not been answered is still to be made. -/
theorem Served.caller_ne (served : Served plan store applied t) {c : Nat}
    (hc : (t.callers c).verdict? = none) : ∀ b ∈ applied, b.caller ≠ c := by
  rintro b hb rfl
  have hanswered := (served.answered b.caller b.verdict).mpr ⟨b, hb, rfl, rfl⟩
  rw [hc] at hanswered
  cases hanswered

theorem Served.miss (served : Served plan store applied t) {c : Nat}
    (hc : t.callers c = .arrived) : Served plan store applied (t.move c t.store .missed) := by
  refine ⟨served.serial, served.once, fun d v => ?_⟩
  rw [← served.answered]
  by_cases hd : d = c
  · subst hd
    rw [Traffic.callers_move_self, hc]
    rfl
  · rw [Traffic.callers_move_of_ne _ _ _ hd]

theorem Served.apply (served : Served plan store applied t) {a : Applied τ} {k : BucketStore τ}
    (hc : (t.callers a.caller).verdict? = none)
    (hbefore : a.before = t.store.get? (plan a.caller).name)
    (hmodify : t.store.modify (plan a.caller).name ((plan a.caller).update a.now) =
      (k, a.verdict)) :
    Served plan store (applied ++ [a]) (t.move a.caller k (.answered a.verdict)) := by
  have hne := served.caller_ne hc
  refine ⟨?_, ?_, fun d v => ?_⟩
  · rw [List.map_append, List.map_singleton, Applied.turn, serve_concat, served.serial]
    dsimp only
    rw [hmodify, ← hbefore]
    rfl
  · rw [List.map_append, List.map_singleton]
    refine List.nodup_append.mpr ⟨served.once, List.nodup_singleton _, fun c hmem d hd => ?_⟩
    obtain ⟨b, hb, rfl⟩ := List.mem_map.mp hmem
    rw [List.mem_singleton.mp hd]
    exact hne b hb
  · simp only [List.mem_append, List.mem_singleton, or_and_right, exists_or, exists_eq_left]
    by_cases hd : d = a.caller
    · -- What has been applied before was for other callers.
      have hold : ¬∃ b ∈ applied, b.caller = d ∧ b.verdict = v :=
        fun ⟨b, hb, hcaller, _⟩ => hne b hb (hcaller.trans hd)
      rw [or_iff_right hold, hd, Traffic.callers_move_self]
      simp [Caller.verdict?]
    · rw [or_iff_left fun h => hd h.1.symm, Traffic.callers_move_of_ne _ _ _ hd, served.answered]

theorem Served.step (served : Served plan store applied t) {e : Event τ} (h : Step plan t e t') :
    Served plan store (applied ++ e.applied?.toList) t' := by
  obtain ⟨c, he, hc, rfl⟩ | ⟨a, k, he, hc, hbefore, hmodify, rfl⟩ := h.cases
  · rw [he, Option.toList_none, List.append_nil]
    exact served.miss hc
  · rw [he]
    exact served.apply hc hbefore hmodify

end

theorem served_of_run {store : BucketStore τ} {es : List (Event τ)} {t : Traffic τ}
    (run : Run (Step plan) { store } es t) :
    Served plan store (es.filterMap Event.applied?) t := by
  induction run with
  | nil => exact ⟨rfl, List.nodup_nil, fun c v => by simp [Caller.verdict?]⟩
  | @snoc es e u v _ h ih =>
      have hlast := ih.step h
      rw [List.filterMap_append]
      cases he : e.applied? <;> simpa [he] using hlast

/-! ### Buckets are made once -/

/-- Whether the bucket with this name was made by the update: it was given none, which a check takes
for a full one. -/
def Applied.creates (plan : Nat → Errand τ) (name : String) (a : Applied τ) : Bool :=
  (plan a.caller).name = name && a.before.isNone

theorem get?_modify_self (store : BucketStore τ) (name : String) (update : Update τ) :
    (store.modify name update).1.get? name = some (update (store.get? name)).1 := by
  rw [modify_eq]
  exact Dictionary.get?_insert_self ..

theorem get?_modify_of_ne (store : BucketStore τ) {name other : String} (update : Update τ)
    (hne : other ≠ name) : (store.modify name update).1.get? other = store.get? other := by
  rw [modify_eq]
  exact Dictionary.get?_insert_of_ne _ _ hne

theorem countP_creates_of_known {store : BucketStore τ} {name : String}
    (h : (store.get? name).isSome) (turns : List (Nat × Nat)) :
    (serve plan store turns).2.countP (Applied.creates plan name) = 0 := by
  induction turns generalizing store with
  | nil => rfl
  | cons turn rest ih =>
      obtain ⟨c, now⟩ := turn
      rw [serve, List.countP_cons]
      by_cases hname : (plan c).name = name
      · subst hname
        rw [ih (by rw [get?_modify_self]; rfl)]
        simp [Applied.creates, Option.isSome_iff_ne_none.mp h]
      · rw [ih (by rwa [get?_modify_of_ne _ _ (Ne.symm hname)])]
        simp [Applied.creates, hname]

theorem countP_creates_of_fresh {store : BucketStore τ} {name : String}
    (h : store.get? name = none) {turns : List (Nat × Nat)}
    (hturn : ∃ x ∈ turns, (plan x.1).name = name) :
    (serve plan store turns).2.countP (Applied.creates plan name) = 1 := by
  induction turns generalizing store with
  | nil => simp at hturn
  | cons turn rest ih =>
      obtain ⟨c, now⟩ := turn
      rw [serve, List.countP_cons]
      by_cases hname : (plan c).name = name
      · subst hname
        rw [countP_creates_of_known (by rw [get?_modify_self]; rfl)]
        simp [Applied.creates, h]
      · rw [ih (by rwa [get?_modify_of_ne _ _ (Ne.symm hname)]) (by simpa [hname] using hturn)]
        simp [Applied.creates, hname]

end

/-! ### Buckets that gain nothing -/

/-- At whatever moment the bucket is next asked, it holds so many tokens. -/
def Holds (burst k : Nat) (b : Option (BucketState Rat)) : Prop :=
  ∀ now, Bucket.filled b now 0 burst = (k : Rat)

theorem holds_some {burst k : Nat} (hk : k ≤ burst) (now : Nat) :
    Holds burst k (some ⟨(k : Rat), now⟩) := by
  intro later
  have hle : (k : Rat) ≤ burst := by exact_mod_cast hk
  rw [Bucket.filled_some]
  simp [Bucket.inflow, hle]

/-- One token less, if there is one. -/
theorem Holds.take {burst k : Nat} {b : Option (BucketState Rat)} (h : Holds burst k b)
    (hk : k ≤ burst) (now : Nat) :
    (Bucket.take b now 0 burst).2.allowed = decide (0 < k) ∧
      Holds burst (k - 1) (some (Bucket.take b now 0 burst).1) := by
  cases k with
  | zero =>
      have hlack : ¬1 ≤ Bucket.filled b now 0 burst + 1 / 1000000 := by
        rw [h now]
        norm_num
      rw [Bucket.take_of_lack hlack, h now, Nat.cast_zero, max_self]
      exact ⟨rfl, by simpa using holds_some hk now⟩
  | succ k =>
      have henough : 1 ≤ Bucket.filled b now 0 burst + 1 / 1000000 := by
        rw [h now]
        push_cast
        linarith [Nat.cast_nonneg (α := Rat) k]
      have hleft : max (((k + 1 : Nat) : Rat) - 1) 0 = k := by
        push_cast
        simp
      rw [Bucket.take_of_enough henough, h now, hleft]
      exact ⟨by simp, holds_some (by omega) now⟩

def Applied.admits (plan : Nat → Errand Rat) (name : String) (a : Applied Rat) : Bool :=
  (plan a.caller).name = name && a.verdict.allowed

variable {plan : Nat → Errand Rat} {key : String} {burst : Nat}

theorem countP_admits_serve (hplan : ∀ c, (plan c).name = key → plan c = .check key 0 burst)
    {store : BucketStore Rat} {k : Nat} (hk : k ≤ burst) (h : Holds burst k (store.get? key))
    (turns : List (Nat × Nat)) :
    (serve plan store turns).2.countP (Applied.admits plan key) =
      min (turns.countP fun x => (plan x.1).name = key) k := by
  induction turns generalizing store k with
  | nil => simp [serve]
  | cons turn rest ih =>
      obtain ⟨c, now⟩ := turn
      rw [serve, List.countP_cons, List.countP_cons]
      by_cases hname : (plan c).name = key
      · obtain ⟨hallowed, hleft⟩ := h.take hk now
        have hnext : Holds burst (k - 1)
            ((store.modify (plan c).name ((plan c).update now)).1.get? key) := by
          rw [hname, get?_modify_self, hplan c hname]
          exact hleft
        have hverdict : (store.modify (plan c).name ((plan c).update now)).2.allowed =
            decide (0 < k) := by
          rw [modify_eq, hplan c hname]
          exact hallowed
        rw [ih (by omega) hnext, Applied.admits, hverdict]
        simp only [hname, decide_true, Bool.true_and, decide_eq_true_eq, if_true]
        split <;> omega
      · rw [ih hk (by rwa [get?_modify_of_ne _ _ (Ne.symm hname)])]
        simp [Applied.admits, hname]

/-- Of the checks of a bucket that starts full and gains nothing, as many are admitted as it holds
tokens. -/
theorem countP_admitted_of_run {store : BucketStore Rat} {es : List (Event Rat)} {t : Traffic Rat}
    {n : Nat} (run : Run (Step plan) { store } es t) (hfresh : store.get? key = none)
    (hkey : ∀ c, (plan c).name = key ↔ c < n) (hplan : ∀ c < n, plan c = .check key 0 burst)
    (hall : ∀ c < n, (t.callers c).verdict?.isSome) :
    ((List.range n).countP fun c => (t.callers c).verdict?.any Verdict.allowed) = min n burst := by
  have served := served_of_run run
  generalize es.filterMap Event.applied? = applied at served
  -- The updates of the bucket are those of the callers below `n`, one of each.
  let mine := applied.filter fun a => (plan a.caller).name = key
  have hmine : ∀ a ∈ mine, a ∈ applied ∧ (plan a.caller).name = key := by simp [mine]
  have hperm : (mine.map Applied.caller).Perm (List.range n) := by
    refine (List.perm_ext_iff_of_nodup ?_ List.nodup_range).mpr fun c => ?_
    · exact served.once.sublist (List.filter_sublist.map _)
    · rw [List.mem_range, ← hkey, List.mem_map]
      constructor
      · rintro ⟨a, ha, rfl⟩
        exact (hmine a ha).2
      · intro hname
        obtain ⟨v, hv⟩ := Option.isSome_iff_exists.mp (hall c ((hkey c).mp hname))
        obtain ⟨a, ha, rfl, -⟩ := (served.answered c v).mp hv
        exact ⟨a, List.mem_filter.mpr ⟨ha, decide_eq_true hname⟩, rfl⟩
  have hlength : (applied.map Applied.turn).countP (fun x => (plan x.1).name = key) = n := by
    rw [List.countP_map, List.countP_eq_length_filter]
    exact (List.length_map _).symm.trans (hperm.length_eq.trans List.length_range)
  have hverdict : ∀ a ∈ mine,
      ((t.callers a.caller).verdict?.any Verdict.allowed = true ↔ a.verdict.allowed = true) := by
    intro a ha
    rw [(served.answered a.caller a.verdict).mpr ⟨a, (hmine a ha).1, rfl, rfl⟩]
    rfl
  have hserve := countP_admits_serve (fun c hc => hplan c ((hkey c).mp hc)) le_rfl
    (hfresh ▸ fun _ => rfl : Holds burst burst (store.get? key)) (applied.map Applied.turn)
  rw [served.serial, hlength] at hserve
  calc ((List.range n).countP fun c => (t.callers c).verdict?.any Verdict.allowed)
      = (mine.map Applied.caller).countP fun c => (t.callers c).verdict?.any Verdict.allowed :=
        (hperm.countP_eq _).symm
    _ = mine.countP fun a => a.verdict.allowed := by
        rw [List.countP_map]
        exact List.countP_congr hverdict
    _ = applied.countP (Applied.admits plan key) := by
        rw [List.countP_filter]
        exact List.countP_congr fun a _ => by simp [Applied.admits, and_comm]
    _ = min n burst := hserve

/-- No token is lost. Whatever the order of the steps in which callers use a store, the updates made
and their answers, and the store in the end, are those of the callers one after the other; each
caller that has been answered has had its update made once, and any other can still have it made;
and a bucket that was not there and is updated is made once. So a new bucket that gains nothing
admits one check for each of its tokens, and no more. -/
theorem no_lost_token :
    (∀ {τ : Type} (plan : Nat → Errand τ) (store : BucketStore τ) (es : List (Event τ))
        (t : Traffic τ), Run (Step plan) { store } es t →
      let applied := es.filterMap Event.applied?
      Served plan store applied t ∧
        (∀ c now, (t.callers c).verdict? = none →
          let made := t.store.modify (plan c).name ((plan c).update now)
          ∃ es, Run (Step plan) t es (t.move c made.1 (.answered made.2))) ∧
        ∀ name, (store.get? name ≠ none → applied.countP (Applied.creates plan name) = 0) ∧
          (store.get? name = none → (∃ a ∈ applied, (plan a.caller).name = name) →
            applied.countP (Applied.creates plan name) = 1)) ∧
      ∀ (plan : Nat → Errand Rat) (store : BucketStore Rat) (es : List (Event Rat))
        (t : Traffic Rat) (key : String) (n burst : Nat), Run (Step plan) { store } es t →
      store.get? key = none → (∀ c, (plan c).name = key ↔ c < n) →
      (∀ c < n, plan c = .check key 0 burst) → (∀ c < n, (t.callers c).verdict?.isSome) →
      ((List.range n).countP fun c => (t.callers c).verdict?.any Verdict.allowed) =
        min n burst := by
  refine ⟨fun plan store es t run => ?_, fun _ _ _ _ _ _ _ => countP_admitted_of_run⟩
  have served := served_of_run run
  refine ⟨served, fun c now => exists_run_modify t c now, fun name => ?_⟩
  have hserve : (serve plan store ((es.filterMap Event.applied?).map Applied.turn)).2 =
      es.filterMap Event.applied? := by rw [served.serial]
  rw [← hserve]
  refine ⟨fun hknown => ?_, fun hfresh hex => ?_⟩
  · exact countP_creates_of_known (Option.isSome_iff_ne_none.mpr hknown) _
  · rw [hserve] at hex
    obtain ⟨a, ha, hname⟩ := hex
    exact countP_creates_of_fresh hfresh ⟨a.turn, List.mem_map_of_mem ha, hname⟩

/-- Two checks of a bucket with one token, neither of which finds the bucket at first. -/
theorem no_lost_token_race :
    let plan : Nat → Errand Rat := fun c => .check (if c < 2 then "shared" else "other") 0 1
    ∃ a b t, Run (Step plan) { store := [] } [.miss 0, .miss 1, .settle a, .settle b] t ∧
      ((List.range 2).countP fun c => (t.callers c).verdict?.any Verdict.allowed) = 1 := by
  intro plan
  let missed : Traffic Rat :=
    ((⟨[], fun _ => .arrived⟩ : Traffic Rat).move 0 [] .missed).move 1 [] .missed
  let first := missed.store.updateOrCreate (plan 0).name ((plan 0).update 5)
  let second := first.1.updateOrCreate (plan 1).name ((plan 1).update 7)
  have run : Run (Step plan) { store := [] } [.miss 0, .miss 1,
      .settle ⟨0, 5, missed.store.get? (plan 0).name, first.2⟩,
      .settle ⟨1, 7, first.1.get? (plan 1).name, second.2⟩]
      ((missed.move 0 first.1 (.answered first.2)).move 1 second.1 (.answered second.2)) :=
    (((Run.single (.miss rfl rfl)).snoc (.miss rfl rfl)).snoc (.settle rfl rfl rfl)).snoc
      (.settle rfl rfl rfl)
  refine ⟨_, _, _, run, ?_⟩
  have hshared : ("other" : String) ≠ "shared" := by decide
  refine no_lost_token.2 plan [] _ _ "shared" 2 1 run rfl (fun c => ?_) (fun c hc => ?_)
    fun c hc => ?_
  · by_cases hc : c < 2
    · exact iff_of_true (if_pos hc) hc
    · exact iff_of_false (fun h => hshared ((if_neg hc).symm.trans h)) hc
  · exact congrArg (Errand.check · 0 1) (if_pos hc)
  · match c, hc with
    | 0, _ => rfl
    | 1, _ => rfl

end HttpGateway.BucketStore
