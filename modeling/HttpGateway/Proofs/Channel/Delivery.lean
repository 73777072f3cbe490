import HttpGateway.Channel

/-!
# What a receiver is owed

A receiver that stays is never passed over in silence: while there is a message that it has not
received, it finds either that message or the notice that some are lost. It finds nothing only
when it has been told of everything that was sent, and looking as often as `Channel.drainAll` does
brings it there. What is sent while it is owed no more than the channel keeps it finds in the order in
which it was sent.
-/

namespace HttpGateway.Channel

variable {α : Type}

/-- The receiver has not left, and the message with this number is the next it is to receive. -/
def Awaits (c : Channel α) (receiver next : Nat) : Prop :=
  c.receivers[receiver]?.join = some next

/-- The receiver is to receive the message with this number next. -/
def goOn (c : Channel α) (receiver next : Nat) : Channel α :=
  { c with receivers := c.receivers.set receiver (some next) }

/-- An open channel that keeps what it should, with a receiver that has not left. -/
structure Attended (c : Channel α) (receiver : Nat) : Prop where
  isOpen : c.closed = false
  kept : c.kept.length = min c.sent c.capacity
  awaits : ∃ next, c.Awaits receiver next ∧ next ≤ c.sent

variable {c : Channel α} {receiver next : Nat}

theorem Awaits.getElem? (h : c.Awaits receiver next) : c.receivers[receiver]? = some (some next) :=
  Option.join_eq_some_iff.mp h

theorem Awaits.goOn (h : c.Awaits receiver next) (n : Nat) :
    (c.goOn receiver n).Awaits receiver n := by
  have hlt : receiver < c.receivers.length := (List.getElem?_eq_some_iff.mp h.getElem?).1
  simp [Awaits, Channel.goOn, hlt]

theorem Awaits.receiverCount_ne_zero (h : c.Awaits receiver next) : c.receiverCount ≠ 0 := by
  have hmem : some next ∈ c.receivers := List.mem_of_getElem? h.getElem?
  exact Nat.ne_of_gt (List.countP_pos_iff.mpr ⟨_, hmem, rfl⟩)

/-- What a receiver finds, and where it goes on. -/
theorem Attended.receive_cases (h : c.Attended receiver) :
    ∃ next, c.Awaits receiver next ∧
      (next = c.sent ∧ c.receive receiver = (.empty, c) ∨
      (next < c.sent ∧ c.sent ≤ next + c.capacity ∧
        ∃ a, c.receive receiver = (.message a, c.goOn receiver (next + 1))) ∨
      (next + c.capacity < c.sent ∧
        c.receive receiver = (.lagged (c.sent - c.capacity - next),
          c.goOn receiver (c.sent - c.capacity)))) := by
  obtain ⟨next, hnext, hle⟩ := h.awaits
  have hfound : c.receivers[receiver]?.join = some next := hnext
  refine ⟨next, hnext, ?_⟩
  by_cases hlag : next + c.capacity < c.sent
  · refine .inr (.inr ⟨hlag, ?_⟩)
    simp only [receive, hfound, if_pos hlag, Channel.goOn]
  · have hoff : next - c.oldest < c.kept.length ↔ next < c.sent := by
      have := h.kept
      simp only [oldest]
      omega
    rcases Nat.lt_or_ge next c.sent with hlt | hge
    · have hin := hoff.mpr hlt
      refine .inr (.inl ⟨hlt, Nat.le_of_not_lt hlag, c.kept[next - c.oldest], ?_⟩)
      simp only [receive, hfound, if_neg hlag, List.getElem?_eq_getElem hin, Channel.goOn]
    · refine .inl ⟨Nat.le_antisymm hle hge, ?_⟩
      have hout : c.kept.length ≤ next - c.oldest :=
        Nat.le_of_not_lt fun hin => Nat.not_lt_of_le hge (hoff.mp hin)
      simp [receive, hfound, if_neg hlag, List.getElem?_eq_none hout, h.isOpen]

theorem Attended.goOn (h : c.Attended receiver) {n : Nat} (hn : n ≤ c.sent) :
    (c.goOn receiver n).Attended receiver := by
  obtain ⟨_, hnext, _⟩ := h.awaits
  exact ⟨h.isOpen, h.kept, n, hnext.goOn n, hn⟩

theorem Attended.receive (h : c.Attended receiver) : (c.receive receiver).2.Attended receiver := by
  obtain ⟨next, -, ⟨-, hr⟩ | ⟨hlt, -, a, hr⟩ | ⟨-, hr⟩⟩ := h.receive_cases
  · rw [hr]
    exact h
  · rw [hr]
    exact h.goOn hlt
  · rw [hr]
    exact h.goOn (Nat.sub_le ..)

/-- A receiver finds nothing only when it has been told of everything. -/
theorem Attended.receive_eq_empty_iff (h : c.Attended receiver) (hnext : c.Awaits receiver next) :
    (c.receive receiver).1 = .empty ↔ next = c.sent := by
  obtain ⟨n, hn, hcases⟩ := h.receive_cases
  obtain rfl : n = next := Option.some.inj (hn.symm.trans hnext)
  rcases hcases with ⟨heq, hr⟩ | ⟨hlt, -, a, hr⟩ | ⟨hlt, hr⟩
  · simp [hr, heq]
  · simp [hr, Nat.ne_of_lt hlt]
  · simp only [hr, reduceCtorEq, false_iff]
    omega

theorem send_of_awaits (hnext : c.Awaits receiver next) (a : α) :
    (c.send a).2 = { c with
      sent := c.sent + 1
      kept := (c.kept ++ [a]).drop ((c.kept ++ [a]).length - c.capacity) } := by
  simp only [send, if_neg hnext.receiverCount_ne_zero]

theorem Attended.send (h : c.Attended receiver) (a : α) : (c.send a).2.Attended receiver := by
  obtain ⟨next, hnext, hle⟩ := h.awaits
  rw [send_of_awaits hnext]
  refine ⟨h.isOpen, ?_, next, hnext, Nat.le_succ_of_le hle⟩
  have := h.kept
  simp only [List.length_drop, List.length_append, List.length_singleton]
  omega

/-- After a message is sent there is something to be found. -/
theorem Attended.receive_send_ne_empty (h : c.Attended receiver) (a : α) :
    ((c.send a).2.receive receiver).1 ≠ .empty := by
  obtain ⟨next, hnext, hle⟩ := h.awaits
  have hsent : (c.send a).2.Awaits receiver next ∧ (c.send a).2.sent = c.sent + 1 := by
    rw [send_of_awaits hnext]
    exact ⟨hnext, rfl⟩
  rw [Ne, (h.send a).receive_eq_empty_iff hsent.1, hsent.2]
  omega

theorem attended_subscribe (capacity : Nat) :
    let (receiver, c) := ({ capacity } : Channel α).subscribe
    c.Attended receiver :=
  ⟨rfl, (Nat.zero_min _).symm, 0, rfl, Nat.le_refl _⟩

/-! ### Looking until there is nothing -/

/-- A receiver that looks once more often than the channel keeps messages has been told of
everything. -/
theorem Attended.receive_drain (h : c.Attended receiver) (hnext : c.Awaits receiver next)
    {fuel : Nat} (hfuel : min (c.sent - next) (c.capacity + 1) ≤ fuel) :
    ((c.drain receiver fuel).2.receive receiver).1 = .empty := by
  induction fuel generalizing c next with
  | zero =>
      obtain ⟨n, hn, hle⟩ := h.awaits
      obtain rfl : n = next := Option.some.inj (hn.symm.trans hnext)
      exact (h.receive_eq_empty_iff hnext).mpr (by omega)
  | succ fuel ih =>
      obtain ⟨n, hn, hcases⟩ := h.receive_cases
      obtain rfl : n = next := Option.some.inj (hn.symm.trans hnext)
      rcases hcases with ⟨-, hr⟩ | ⟨hlt, hle, a, hr⟩ | ⟨hlt, hr⟩
      · simp only [drain, hr]
      · simp only [drain, hr]
        refine ih (h.goOn hlt) (hnext.goOn _) ?_
        simp only [Channel.goOn]
        omega
      · simp only [drain, hr]
        refine ih (h.goOn (Nat.sub_le ..)) (hnext.goOn _) ?_
        simp only [Channel.goOn]
        omega

theorem Attended.drain (h : c.Attended receiver) (fuel : Nat) :
    (c.drain receiver fuel).2.Attended receiver := by
  induction fuel generalizing c with
  | zero => exact h
  | succ fuel ih =>
      have hnext := h.receive
      rcases hr : c.receive receiver with ⟨found, c'⟩
      rw [hr] at hnext
      cases found <;> simp only [Channel.drain, hr]
      · exact ih hnext
      · exact ih hnext
      · exact hnext
      · exact hnext

theorem Attended.receive_drainAll (h : c.Attended receiver) :
    ((c.drainAll receiver).2.receive receiver).1 = .empty := by
  obtain ⟨_, hnext, _⟩ := h.awaits
  exact h.receive_drain hnext (by omega)

/-! ### Several messages -/

/-- Sends messages one after the other. -/
def sendAll (c : Channel α) (messages : List α) : Channel α :=
  messages.foldl (fun c a => (c.send a).2) c

/-- What a receiver finds when it looks a number of times. -/
def looks (c : Channel α) (receiver : Nat) : Nat → List (Received α)
  | 0 => []
  | n + 1 => (c.receive receiver).1 :: looks (c.receive receiver).2 receiver n

/-- The receiver has still to receive just these messages, in this order, and all of them are
kept. -/
structure Owes (c : Channel α) (receiver : Nat) (messages : List α) : Prop where
  isOpen : c.closed = false
  kept : c.kept.length = min c.sent c.capacity
  awaits : c.Awaits receiver (c.sent - messages.length)
  latest : messages <:+ c.kept

theorem owes_subscribe (h : c.closed = false) (hkept : c.kept.length = min c.sent c.capacity) :
    c.subscribe.2.Owes c.subscribe.1 [] where
  isOpen := h
  kept := hkept
  awaits := by simp [Awaits, subscribe]
  latest := List.nil_suffix

variable {messages : List α}

theorem Owes.length_le (h : c.Owes receiver messages) :
    messages.length ≤ c.sent ∧ messages.length ≤ c.capacity := by
  have hlatest := h.latest.length_le
  have hkept := h.kept
  omega

theorem Owes.attended (h : c.Owes receiver messages) : c.Attended receiver :=
  ⟨h.isOpen, h.kept, _, h.awaits, Nat.sub_le ..⟩

/-- A receiver to which nothing is owed finds nothing. -/
theorem Owes.receive_nil (h : c.Owes receiver []) : (c.receive receiver).1 = .empty :=
  (h.attended.receive_eq_empty_iff h.awaits).mpr rfl

/-- The oldest message owed to a receiver is the next it finds. -/
theorem Owes.receive_cons {a : α} (h : c.Owes receiver (a :: messages)) :
    (c.receive receiver).1 = .message a ∧ (c.receive receiver).2.Owes receiver messages := by
  obtain ⟨earlier, hearlier⟩ := h.latest
  have hlength := congrArg List.length hearlier
  have hle := h.length_le
  have hkept := h.kept
  have hawaits := h.awaits
  have hnext : c.receivers[receiver]?.join = some (c.sent - (a :: messages).length) := hawaits
  simp only [List.length_append, List.length_cons] at hlength hle hnext
  have hlag : ¬c.sent - (messages.length + 1) + c.capacity < c.sent := by omega
  have hplace : c.sent - (messages.length + 1) - c.oldest = earlier.length := by
    simp only [oldest]
    omega
  have hfound : c.kept[earlier.length]? = some a := by simp [← hearlier]
  have hon : c.sent - (messages.length + 1) + 1 = c.sent - messages.length := by omega
  simp only [receive, hnext, if_neg hlag, hplace, hfound, hon, true_and]
  exact ⟨h.isOpen, hkept, hawaits.goOn _, (List.suffix_cons a messages).trans h.latest⟩

/-- A message that is sent while there is room for it is owed last. -/
theorem Owes.send (h : c.Owes receiver messages) (a : α) (hroom : messages.length < c.capacity) :
    (c.send a).2.Owes receiver (messages ++ [a]) := by
  have hattended := h.attended.send a
  rw [send_of_awaits h.awaits] at hattended ⊢
  refine ⟨hattended.isOpen, hattended.kept, ?_, ?_⟩
  · have hsame : c.sent + 1 - (messages ++ [a]).length = c.sent - messages.length := by
      simp only [List.length_append, List.length_singleton]
      omega
    rw [hsame]
    exact h.awaits
  · obtain ⟨earlier, hearlier⟩ := h.latest
    have hall : messages ++ [a] <:+ c.kept ++ [a] := ⟨earlier, by rw [← hearlier, List.append_assoc]⟩
    refine List.suffix_of_suffix_length_le hall (List.drop_suffix _ _) ?_
    have hle := hall.length_le
    simp only [List.length_drop, List.length_append, List.length_singleton] at hle ⊢
    omega

theorem capacity_send (c : Channel α) (a : α) : (c.send a).2.capacity = c.capacity := by
  unfold Channel.send
  split <;> rfl

theorem Owes.sendAll (h : c.Owes receiver messages) {later : List α}
    (hroom : messages.length + later.length ≤ c.capacity) :
    (c.sendAll later).Owes receiver (messages ++ later) := by
  induction later generalizing c messages with
  | nil => simpa [Channel.sendAll] using h
  | cons a later ih =>
      rw [List.length_cons] at hroom
      have hsent := h.send a (by omega)
      rw [List.append_cons]
      refine ih hsent ?_
      rw [capacity_send, List.length_append, List.length_singleton]
      omega

/-- A receiver finds all messages owed to it in their order, and then nothing. -/
theorem Owes.looks (h : c.Owes receiver messages) :
    c.looks receiver (messages.length + 1) = messages.map .message ++ [.empty] := by
  induction messages generalizing c with
  | nil => simp only [List.length_nil, Channel.looks, h.receive_nil, List.map_nil, List.nil_append]
  | cons a messages ih =>
      obtain ⟨hfound, hleft⟩ := h.receive_cons
      rw [List.length_cons, Channel.looks, hfound, ih hleft, List.map_cons, List.cons_append]

end HttpGateway.Channel
