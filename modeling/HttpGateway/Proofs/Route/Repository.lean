import HttpGateway.Proofs.Gateway.Interleaving

/-!
# The repository as a map with a log

What a repository holds after any sequence of changes, told from the sequence alone: for each id the
definition saved last, in the order in which the ids came. A change that is refused leaves everything
as it was. Every other one is announced, once, when it has been made, and whoever has subscribed
finds the announcements in the order of the changes.
-/

namespace HttpGateway

namespace RouteRepository

/-- A change that is asked for. -/
inductive Call where
  | save (d : RouteDefinition)
  | delete (id : String)

namespace Call

/-- Whether the change is carried out, and the repository after it. -/
def make : Call → RouteRepository → Outcome × RouteRepository
  | .save d, r => r.save d
  | .delete id, r => r.delete id

/-- The definitions after the change. -/
def change : Call → List RouteDefinition → List RouteDefinition
  | .save d, stored => place d stored
  | .delete id, stored => stored.filter fun d => d.id ≠ id

/-- The announcement of the change. -/
def event : Call → RouteEvent
  | .save d => .saved d.id
  | .delete id => .deleted id

/-- A definition is saved under no blank id, and only what is stored is deleted. -/
def Refused (c : Call) (ids : List String) : Prop :=
  match c with
  | .save d => isBlankId d.id = true
  | .delete id => id ∉ ids

/-- Why the change is refused, if it is. -/
def refusal : Call → GatewayError
  | .save _ => .definition .missingId
  | .delete id => .routeNotFound id

end Call

/-- The ids under which something is stored, in their order. -/
def ids (r : RouteRepository) : List String := r.definitions.map RouteDefinition.id

/-- The repository after some calls. -/
def perform (r : RouteRepository) (calls : List Call) : RouteRepository :=
  calls.foldl (fun r c => (c.make r).2) r

/-- The calls that are carried out. -/
def carriedOut (r : RouteRepository) : List Call → List Call
  | [] => []
  | c :: later => match c.make r with
    | (.ok (), r) => c :: carriedOut r later
    | (.error _, r) => carriedOut r later

/-! ### The calls so far

What is stored, told from the calls so far, the latest first. -/

/-- The definition that has been saved last under an id, if the id has not been deleted since. -/
def lastSaved (id : String) : List Call → Option RouteDefinition
  | [] => none
  | .save d :: earlier =>
    if d.id = id ∧ isBlankId id = false then some d else lastSaved id earlier
  | .delete other :: earlier => if other = id then none else lastSaved id earlier

/-- The number of the first call that has saved something under an id since it was last deleted. -/
def firstSaved (id : String) : List Call → Option Nat
  | [] => none
  | .save d :: earlier => (firstSaved id earlier).or
      (if d.id = id ∧ isBlankId id = false then some earlier.length else none)
  | .delete other :: earlier => if other = id then none else firstSaved id earlier

/-- One id has come before the other. -/
def CameBefore (history : List Call) (a b : String) : Prop :=
  ∃ m n, firstSaved a history = some m ∧ firstSaved b history = some n ∧ m < n

/-! ### Single calls -/

variable {r : RouteRepository} {c : Call} {d e : RouteDefinition} {id a b : String}

theorem length_filter_eq_iff (stored : List RouteDefinition) (id : String) :
    (stored.filter fun d => d.id ≠ id).length = stored.length ↔
      id ∉ stored.map RouteDefinition.id := by
  rw [List.length_filter_eq_length_iff]
  simp only [decide_eq_true_eq, List.mem_map, not_exists, not_and]

theorem make_of_refused (h : c.Refused r.ids) : c.make r = (.error c.refusal, r) := by
  cases c with
  | save d => exact r.save_of_blank h
  | delete id => exact r.delete_of_unknown ((length_filter_eq_iff ..).mpr h)

theorem make_of_not_refused (h : ¬c.Refused r.ids) :
    c.make r = (.ok (), { r with definitions := c.change r.definitions }.announce c.event) := by
  cases c with
  | save d => exact r.save_of_named (Bool.eq_false_iff.mpr h)
  | delete id => exact r.delete_of_known fun hlength => h ((length_filter_eq_iff ..).mp hlength)

/-- Every change that is made is announced, and nothing else is. -/
theorem events_perform (r : RouteRepository) (calls : List Call) :
    (r.perform calls).events = r.events.sendAll ((r.carriedOut calls).map Call.event) := by
  induction calls generalizing r with
  | nil => rfl
  | cons c later ih =>
      rw [perform, List.foldl_cons]
      by_cases h : c.Refused r.ids
      · simp only [carriedOut, make_of_refused h]
        exact ih r
      · simp only [carriedOut, make_of_not_refused h]
        exact ih _

/-! ### Definitions in their places -/

/-- To place a definition keeps the place of its id, or adds it at the end. -/
theorem ids_place (d : RouteDefinition) (stored : List RouteDefinition) :
    (place d stored).map RouteDefinition.id =
      if d.id ∈ stored.map RouteDefinition.id then stored.map RouteDefinition.id
      else stored.map RouteDefinition.id ++ [d.id] := by
  induction stored with
  | nil => rfl
  | cons e rest ih =>
      rw [place]
      by_cases he : e.id = d.id
      · simp [he]
      · rw [if_neg he, List.map_cons, ih, List.map_cons]
        have hmem : d.id ∈ e.id :: rest.map RouteDefinition.id ↔
            d.id ∈ rest.map RouteDefinition.id := by simp [Ne.symm he]
        simp only [hmem]
        split <;> rfl

/-- A definition that is placed takes the place of the one with its id, and no other is lost. -/
theorem mem_place_iff {stored : List RouteDefinition}
    (h : (stored.map RouteDefinition.id).Nodup) :
    e ∈ place d stored ↔ e = d ∨ (e ∈ stored ∧ e.id ≠ d.id) := by
  induction stored with
  | nil => simp [place]
  | cons f rest ih =>
      obtain ⟨hf, hrest⟩ := List.nodup_cons.mp h
      rw [place]
      by_cases hid : f.id = d.id
      · have hother (he : e ∈ rest) : e.id ≠ d.id :=
          fun heq => hf (List.mem_map.mpr ⟨e, he, heq.trans hid.symm⟩)
        rw [if_pos hid]
        grind
      · rw [if_neg hid, List.mem_cons, ih hrest]
        grind

/-! ### Histories -/

variable {history : List Call}

theorem id_of_lastSaved (h : lastSaved id history = some d) :
    d.id = id ∧ isBlankId id = false := by
  fun_induction lastSaved id history <;> grind

theorem isSome_firstSaved (id : String) (history : List Call) :
    (firstSaved id history).isSome = (lastSaved id history).isSome := by
  fun_induction lastSaved id history <;> grind [firstSaved]

theorem firstSaved_lt {n : Nat} (h : firstSaved id history = some n) : n < history.length := by
  induction history with
  | nil => cases h
  | cons c earlier ih =>
      cases c with
      | save d =>
          rcases Option.or_eq_some_iff.mp h with hold | ⟨-, hnew⟩
          · exact Nat.lt_succ_of_lt (ih hold)
          · split at hnew <;> cases hnew
            exact Nat.lt_succ_self _
      | delete other =>
          rw [firstSaved] at h
          split at h
          · cases h
          · exact Nat.lt_succ_of_lt (ih h)

theorem CameBefore.ne (h : CameBefore history a b) : a ≠ b := by
  rintro rfl
  obtain ⟨m, n, hm, hn, hlt⟩ := h
  exact absurd (Option.some.inj (hm.symm.trans hn)) (Nat.ne_of_lt hlt)

/-- What comes later does not change which id has come before which. -/
theorem CameBefore.save (h : CameBefore history a b) (d : RouteDefinition) :
    CameBefore (.save d :: history) a b := by
  obtain ⟨m, n, hm, hn, hlt⟩ := h
  exact ⟨m, n, by simp [firstSaved, hm], by simp [firstSaved, hn], hlt⟩

theorem CameBefore.delete (h : CameBefore history a b) (ha : id ≠ a) (hb : id ≠ b) :
    CameBefore (.delete id :: history) a b := by
  obtain ⟨m, n, hm, hn, hlt⟩ := h
  exact ⟨m, n, by simp [firstSaved, ha, hm], by simp [firstSaved, hb, hn], hlt⟩

/-- The definitions are those that the calls so far have left, in the order in which their ids have
come. -/
structure Mirrors (history : List Call) (stored : List RouteDefinition) : Prop where
  mem_iff : ∀ d, d ∈ stored ↔ lastSaved d.id history = some d
  ordered : (stored.map RouteDefinition.id).Pairwise (CameBefore history)

namespace Mirrors

variable {stored : List RouteDefinition}

theorem nodup (h : Mirrors history stored) : (stored.map RouteDefinition.id).Nodup :=
  h.ordered.imp CameBefore.ne

theorem mem_ids_iff (h : Mirrors history stored) :
    id ∈ stored.map RouteDefinition.id ↔ (lastSaved id history).isSome = true := by
  rw [List.mem_map, Option.isSome_iff_exists]
  constructor
  · rintro ⟨d, hd, rfl⟩
    exact ⟨d, (h.mem_iff d).mp hd⟩
  · rintro ⟨d, hd⟩
    obtain ⟨rfl, -⟩ := id_of_lastSaved hd
    exact ⟨d, (h.mem_iff d).mpr hd, rfl⟩

theorem not_blank (h : Mirrors history stored) (hid : id ∈ stored.map RouteDefinition.id) :
    isBlankId id = false := by
  obtain ⟨d, hd⟩ := Option.isSome_iff_exists.mp (h.mem_ids_iff.mp hid)
  exact (id_of_lastSaved hd).2

/-- A call that is refused leaves nothing behind in the history. -/
theorem refused (h : Mirrors history stored)
    (hc : c.Refused (stored.map RouteDefinition.id)) : Mirrors (c :: history) stored := by
  cases c with
  | save d =>
      have hblank {id : String} : ¬(d.id = id ∧ isBlankId id = false) := by
        rintro ⟨rfl, hnot⟩
        exact absurd (hnot.symm.trans hc) nofun
      exact ⟨fun e => by rw [lastSaved, if_neg hblank]; exact h.mem_iff e,
        h.ordered.imp fun hbefore => hbefore.save d⟩
  | delete id =>
      refine ⟨fun e => ?_, h.ordered.imp_of_mem fun ha hb hbefore =>
        hbefore.delete (fun heq => hc (heq ▸ ha)) fun heq => hc (heq ▸ hb)⟩
      rw [lastSaved]
      by_cases heq : id = e.id
      · rw [if_pos heq]
        exact iff_of_false (fun he => hc (heq ▸ List.mem_map_of_mem he)) nofun
      · rw [if_neg heq]
        exact h.mem_iff e

theorem save (h : Mirrors history stored) (hd : isBlankId d.id = false) :
    Mirrors (.save d :: history) (place d stored) := by
  constructor
  · intro e
    rw [mem_place_iff h.nodup, lastSaved]
    by_cases heq : d.id = e.id
    · rw [if_pos ⟨heq, heq ▸ hd⟩, Option.some.injEq]
      exact ⟨fun he => (he.resolve_right fun hne => hne.2 heq.symm).symm, fun he => .inl he.symm⟩
    · rw [if_neg fun hboth => heq hboth.1, ← h.mem_iff]
      exact ⟨fun he => (he.resolve_left fun hsame => heq (hsame ▸ rfl)).1,
        fun he => .inr ⟨he, Ne.symm heq⟩⟩
  · have hkept := h.ordered.imp fun hbefore => CameBefore.save hbefore d
    rw [ids_place]
    split
    · exact hkept
    next hnew =>
      -- The id comes with this call, and all others have come before.
      refine List.pairwise_append.mpr ⟨hkept, List.pairwise_singleton _ _, fun a ha b hb => ?_⟩
      obtain rfl := List.mem_singleton.mp hb
      have hold : (firstSaved a history).isSome = true :=
        (isSome_firstSaved a history).trans (h.mem_ids_iff.mp ha)
      obtain ⟨m, hm⟩ := Option.isSome_iff_exists.mp hold
      have hnone : firstSaved d.id history = none := by
        rw [← Option.not_isSome_iff_eq_none, isSome_firstSaved, ← h.mem_ids_iff]
        exact hnew
      exact ⟨m, history.length, by simp [firstSaved, hm], by simp [firstSaved, hnone, hd],
        firstSaved_lt hm⟩

theorem delete (h : Mirrors history stored) (id : String) :
    Mirrors (.delete id :: history) (stored.filter fun d => d.id ≠ id) := by
  constructor
  · intro e
    rw [List.mem_filter, decide_eq_true_eq, lastSaved]
    by_cases heq : id = e.id
    · rw [if_pos heq]
      exact iff_of_false (fun he => he.2 heq.symm) nofun
    · rw [if_neg heq, ← h.mem_iff]
      exact ⟨And.left, fun he => ⟨he, Ne.symm heq⟩⟩
  · have hleft : ∀ a ∈ (stored.filter fun d => d.id ≠ id).map RouteDefinition.id, id ≠ a := by
      intro a ha
      obtain ⟨d, hd, rfl⟩ := List.mem_map.mp ha
      exact Ne.symm (of_decide_eq_true (List.mem_filter.mp hd).2)
    have hsublist : (stored.filter fun d => d.id ≠ id).Sublist stored := List.filter_sublist
    have hkept := h.ordered.sublist (hsublist.map RouteDefinition.id)
    exact hkept.imp_of_mem fun ha hb hbefore => hbefore.delete (hleft _ ha) (hleft _ hb)

/-- Each call keeps what is stored in step with the history. -/
theorem make {r : RouteRepository} (h : Mirrors history r.definitions) (c : Call) :
    Mirrors (c :: history) (c.make r).2.definitions := by
  by_cases hc : c.Refused r.ids
  · rw [make_of_refused hc]
    exact h.refused hc
  · rw [make_of_not_refused hc]
    cases c with
    | save d => exact h.save (Bool.eq_false_iff.mpr hc)
    | delete id => exact h.delete id

theorem perform {r : RouteRepository} (h : Mirrors history r.definitions) (calls : List Call) :
    Mirrors (calls.reverse ++ history) (r.perform calls).definitions := by
  induction calls generalizing r history with
  | nil => exact h
  | cons c later ih =>
      rw [List.reverse_cons, List.append_assoc]
      exact ih (h.make c)

end Mirrors

/-! ### A change and its announcement -/

/-- The moment at which the change is made. -/
def Call.moment : Call → Site.Event
  | .save d => .save d
  | .delete id => .delete id

/-- A change that is carried out is first made and then announced. -/
theorem steps_of_not_refused {s : Site} (h : ¬c.Refused s.gateway.repository.ids) :
    let changed := s.write (c.change s.stored) c.event
    Site.Step s c.moment changed ∧
      Site.Step changed (.announce c.event) (s.withRepository (c.make s.gateway.repository).2) := by
  intro changed
  constructor
  · cases c with
    | save d => exact .save (Bool.eq_false_iff.mpr h)
    | delete id => exact .delete fun hlength => h ((length_filter_eq_iff ..).mp hlength)
  · have hannounce : Site.Step changed (.announce c.event) _ := .announce List.mem_cons_self
    rw [show changed.unannounced = c.event :: s.unannounced from rfl, List.erase_cons_head]
      at hannounce
    rw [make_of_not_refused h]
    exact hannounce

/-- A repository is a map that keeps the order in which its ids have come, with a log. Whoever has
subscribed, after any sequence of calls its ids are distinct and not blank; each definition is the
one saved last under its id, and none is missing; and the ids stand in the order in which they were
first saved since they were last deleted. A further call fails just if it saves under a blank id or
deletes what is not stored, and then it changes neither the definitions nor what has been announced.
Announced is every call that has been carried out, once and in its order, and nothing else. A
receiver that nothing is owed at the start, and for which the channel has room, finds just these
announcements. At the moment at which a change is announced it has been made. -/
theorem map_with_log (events : Channel RouteEvent) (calls : List Call) :
    let start : RouteRepository := { events }
    let left := start.perform calls
    let announced := (start.carriedOut calls).map Call.event
    (left.ids.Nodup ∧ ∀ id ∈ left.ids, isBlankId id = false) ∧
    (∀ d, d ∈ left.definitions ↔ lastSaved d.id calls.reverse = some d) ∧
    left.ids.Pairwise (CameBefore calls.reverse) ∧
    (∀ c : Call, (c.Refused left.ids → c.make left = (.error c.refusal, left)) ∧
      (¬c.Refused left.ids → c.make left =
        (.ok (), { left with definitions := c.change left.definitions }.announce c.event))) ∧
    left.events = events.sendAll announced ∧
    (∀ receiver, events.Owes receiver [] → announced.length ≤ events.capacity →
      left.events.looks receiver (announced.length + 1) = announced.map .message ++ [.empty]) ∧
    ∀ (s : Site) (c : Call), ¬c.Refused s.gateway.repository.ids →
      ∃ changed : Site, Site.Step s c.moment changed ∧
        changed.stored = (c.make s.gateway.repository).2.definitions ∧
        changed.gateway.repository.events = s.gateway.repository.events ∧
        Site.Step changed (.announce c.event)
          (s.withRepository (c.make s.gateway.repository).2) := by
  intro start left announced
  have hnew : Mirrors [] start.definitions := ⟨fun d => by simp [start, lastSaved], .nil⟩
  have hmirrors : Mirrors calls.reverse left.definitions := by
    simpa using hnew.perform calls
  have hevents : left.events = events.sendAll announced := events_perform start calls
  refine ⟨⟨hmirrors.nodup, fun id => hmirrors.not_blank⟩, hmirrors.mem_iff, hmirrors.ordered,
    fun c => ⟨make_of_refused, make_of_not_refused⟩, hevents, fun receiver howes hroom => ?_,
    fun s c hc => ?_⟩
  · have hall : (events.sendAll announced).Owes receiver announced :=
      howes.sendAll (by simpa using hroom)
    rw [hevents]
    exact hall.looks
  · obtain ⟨hchange, hannounce⟩ := steps_of_not_refused hc
    refine ⟨_, hchange, ?_, rfl, hannounce⟩
    rw [make_of_not_refused hc]
    rfl

/-- A channel with one receiver, which has been there from the start. -/
def heardChannel : Channel RouteEvent := ({ capacity := 64 } : Channel RouteEvent).subscribe.2

/-- Definitions come, are saved again, deleted and saved anew, and two calls are refused. -/
def busyCalls : List Call :=
  [.save { id := "a", uri := "http://one" }, .save { id := "b", uri := "http://two" },
    .save { id := "a", uri := "http://three" }, .delete "ghost", .save { id := " ", uri := "http://no" },
    .delete "b", .save { id := "c", uri := "http://four" }, .save { id := "b", uri := "http://five" }]

/-- The definition saved last is there, an id that was deleted stands at the end, and the receiver has
been told of six changes. -/
theorem map_with_log_busy :
    let left := perform { events := heardChannel } busyCalls
    left.ids.Pairwise (CameBefore busyCalls.reverse) ∧
      { id := "a", uri := "http://three" } ∈ left.definitions ∧
      CameBefore busyCalls.reverse "c" "b" ∧
      (Call.delete "ghost").make left = (.error (.routeNotFound "ghost"), left) ∧
      left.events.looks 0 7 = [.message (.saved "a"), .message (.saved "b"), .message (.saved "a"),
        .message (.deleted "b"), .message (.saved "c"), .message (.saved "b"), .empty] := by
  intro left
  obtain ⟨-, hmem, hordered, hmake, -, hlooks, -⟩ := map_with_log heardChannel busyCalls
  have hids : left.ids = ["a", "c", "b"] := by rfl
  have hannounced : (carriedOut { events := heardChannel } busyCalls).map Call.event =
      [.saved "a", .saved "b", .saved "a", .deleted "b", .saved "c", .saved "b"] := by rfl
  have howes : heardChannel.Owes 0 [] := Channel.owes_subscribe rfl rfl
  rw [hannounced] at hlooks
  refine ⟨hordered, (hmem _).mpr (by rfl), ⟨6, 7, by rfl, by rfl, by decide⟩, ?_,
    hlooks 0 howes (by decide)⟩
  exact (hmake (.delete "ghost")).1 (show "ghost" ∉ left.ids by rw [hids]; decide)

end RouteRepository

end HttpGateway
