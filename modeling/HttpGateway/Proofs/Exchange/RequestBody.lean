import HttpGateway.Filter.Chain

/-!
# Bodies are sent whole

The body of a request is asked for in two ways: it is handed out as it is, or it is read as a whole
up to a limit. Whatever is asked, in whatever order, all that is ever given is all of the body. A
body that is still to arrive is given away by the first call. Only if that call has read it as a
whole is there something to be given again.
-/

namespace HttpGateway

/-- All bytes of a body that arrive, be it broken off afterwards or not. -/
def Body.content (b : Body) : Bytes := b.chunks.flatten

@[simp] theorem Body.content_whole (bytes : Bytes) : (Body.whole bytes).content = bytes := by
  simp [content, chunks]

namespace RequestBody

/-- What is asked of the body of a request. -/
inductive Call where
  | take
  | materialize (limit : Nat)
  deriving DecidableEq

/-- What a call gives: a body to be read, or the bytes of one. -/
inductive Given where
  | body (b : Body)
  | bytes (bytes : Bytes)
  deriving DecidableEq

/-- All of a body is given: every byte, and the error in which it breaks off. -/
def Given.IsAllOf (b : Body) : Given → Prop
  | .body given => given.content = b.content ∧ given.failure = b.failure
  | .bytes given => given = b.content ∧ b.failure = none

/-- What is sent to the backend of what has been given: a form that has been read is written anew. -/
def Given.outbound : Given → Body
  | .body b => b
  | .bytes raw => .whole (Form.reencode raw)

/-- What a call gives, and what is left for the next. -/
def Call.make : Call → RequestBody → Except GatewayError Given × RequestBody
  | .take, r => (r.take.1.map .body, r.take.2)
  | .materialize limit, r => ((r.materialize limit).1.map .bytes, (r.materialize limit).2)

/-- What a call gives of bytes that are at hand. -/
def Call.give (bytes : Bytes) : Call → Given
  | .take => .body (.whole bytes)
  | .materialize _ => .bytes bytes

/-- There is nothing left to be given. -/
def spent : Except GatewayError Given := .error (.missingState .requestBody)

/-- What is left after some calls. -/
def perform (r : RequestBody) (calls : List Call) : RequestBody :=
  calls.foldl (fun r c => (c.make r).2) r

/-- What some calls give, one after the other. -/
def answers (r : RequestBody) : List Call → List (Except GatewayError Given)
  | [] => []
  | c :: later => (c.make r).1 :: answers (c.make r).2 later

/-- The call has read the body as a whole. -/
def isRead : Except GatewayError Given → Bool
  | .ok (.bytes _) => true
  | _ => false

/-- Some of the calls has read the body as a whole. -/
def hasRead (r : RequestBody) (calls : List Call) : Bool := (r.answers calls).any isRead

theorem perform_append (r : RequestBody) (before later : List Call) :
    r.perform (before ++ later) = (r.perform before).perform later :=
  List.foldl_append

theorem answers_append (r : RequestBody) (before later : List Call) :
    r.answers (before ++ later) = r.answers before ++ (r.perform before).answers later := by
  induction before generalizing r with
  | nil => rfl
  | cons c before ih => exact congrArg _ (ih _)

/-! ### Single calls -/

/-- Reading up to a limit comes to the same for all ways to cut the bytes into chunks. -/
theorem collect_eq (limit : Nat) (failure : Option String) (room : Nat) (chunks : List Bytes) :
    collect limit failure room chunks =
      if room < chunks.flatten.length then .error (.bodyTooLarge limit)
      else match failure with
        | some reason => .error (.bodyRead reason)
        | none => .ok chunks.flatten := by
  induction chunks generalizing room with
  | nil => cases failure <;> simp [collect]
  | cons chunk rest ih =>
      rw [collect, List.flatten_cons, List.length_append]
      by_cases hchunk : room < chunk.length
      · rw [if_pos hchunk, if_pos (Nat.lt_add_right _ hchunk)]
      · have hrest : room - chunk.length < rest.flatten.length ↔
            room < chunk.length + rest.flatten.length := by omega
        rw [if_neg hchunk, ih]
        simp only [hrest]
        split
        · rfl
        · cases failure <;> rfl

theorem materialize_streaming (limit : Nat) (b : Body) :
    (streaming b).materialize limit =
      if limit < b.content.length then (.error (.bodyTooLarge limit), .consumed)
      else match b.failure with
        | some reason => (.error (.bodyRead reason), .consumed)
        | none => (.ok b.content, .buffered b.content) := by
  have hcollect := collect_eq limit b.failure limit b.chunks
  rw [← Body.content] at hcollect
  rw [materialize, hcollect]
  by_cases hlimit : limit < b.content.length
  · rw [if_pos hlimit, if_pos hlimit]
  · rw [if_neg hlimit, if_neg hlimit]
    cases b.failure <;> rfl

theorem make_empty (c : Call) : c.make empty = (.ok (c.give []), empty) := by
  cases c <;> rfl

theorem make_buffered (bytes : Bytes) (c : Call) :
    c.make (buffered bytes) = (.ok (c.give bytes), buffered bytes) := by
  cases c <;> rfl

theorem make_consumed (c : Call) : c.make consumed = (spent, consumed) := by
  cases c <;> rfl

theorem isAllOf_give {b : Body} (h : b.failure = none) (c : Call) :
    (c.give b.content).IsAllOf b := by
  cases c with
  | take => exact ⟨Body.content_whole _, h.symm⟩
  | materialize limit => exact ⟨rfl, h⟩

/-- The first call that is made of a body still to arrive. It leaves nothing, unless it has read the
body as a whole, and the bytes are kept then. -/
theorem make_streaming (b : Body) (c : Call) :
    ((c.make (streaming b)).2 = consumed ∧
      (∀ g, (c.make (streaming b)).1 = .ok g → g = .body b)) ∨
    (b.failure = none ∧
      c.make (streaming b) = (.ok (.bytes b.content), buffered b.content)) := by
  cases c with
  | take => exact .inl ⟨rfl, fun g hg => (Except.ok.inj hg).symm⟩
  | materialize limit =>
      simp only [Call.make, materialize_streaming]
      by_cases hlimit : limit < b.content.length
      · rw [if_pos hlimit]
        exact .inl ⟨rfl, nofun⟩
      · rw [if_neg hlimit]
        cases hfailure : b.failure with
        | some reason => exact .inl ⟨rfl, nofun⟩
        | none => exact .inr ⟨rfl, rfl⟩

theorem ofBody_of_ne {b : Body} (h : b ≠ .whole []) : ofBody b = streaming b := by
  unfold ofBody
  split
  · exact absurd rfl h
  · rfl

/-! ### Any number of calls -/

variable {r : RequestBody} {b : Body}

/-- Where a call leaves things as they are, all further calls do. -/
theorem calls_of_settled {give : Call → Except GatewayError Given}
    (h : ∀ c, Call.make c r = (give c, r)) (calls : List Call) :
    r.answers calls = calls.map give ∧ r.perform calls = r := by
  induction calls with
  | nil => exact ⟨rfl, rfl⟩
  | cons c later ih =>
      rw [answers, perform, List.foldl_cons, h]
      exact ⟨congrArg _ ih.1, ih.2⟩

theorem calls_of_empty (calls : List Call) :
    empty.answers calls = (calls.map fun c => .ok (c.give [])) ∧ empty.perform calls = empty :=
  calls_of_settled make_empty calls

theorem calls_of_buffered (bytes : Bytes) (calls : List Call) :
    (buffered bytes).answers calls = (calls.map fun c => .ok (c.give bytes)) ∧
      (buffered bytes).perform calls = buffered bytes :=
  calls_of_settled (make_buffered bytes) calls

theorem calls_of_consumed (calls : List Call) :
    consumed.answers calls = List.replicate calls.length spent ∧
      consumed.perform calls = consumed := by
  rw [← List.map_const']
  exact calls_of_settled make_consumed calls

/-- What any number of calls make of a body still to arrive. -/
theorem calls_of_streaming (b : Body) (first : Call) (later : List Call) :
    ((streaming b).hasRead (first :: later) = false ∧
      (∀ g, (first.make (streaming b)).1 = .ok g → g = .body b) ∧
      (streaming b).answers (first :: later) =
        (first.make (streaming b)).1 :: List.replicate later.length spent ∧
      (streaming b).perform (first :: later) = consumed) ∨
    (b.failure = none ∧ (streaming b).hasRead (first :: later) = true ∧
      (streaming b).answers (first :: later) =
        .ok (.bytes b.content) :: later.map (fun c => .ok (c.give b.content)) ∧
      (streaming b).perform (first :: later) = buffered b.content) := by
  rw [hasRead, answers, perform, List.foldl_cons]
  rcases make_streaming b first with ⟨hleft, hgiven⟩ | ⟨hfailure, hmake⟩
  · obtain ⟨hanswers, hperform⟩ := calls_of_consumed later
    rw [hleft, hanswers]
    refine .inl ⟨List.any_eq_false.mpr fun answer hmem => ?_, hgiven, rfl, hperform⟩
    rcases List.mem_cons.mp hmem with rfl | hlater
    · cases hfirst : (first.make (streaming b)).1 with
      | error e => simp [isRead]
      | ok g => simp [isRead, hgiven g hfirst]
    · simp [List.eq_of_mem_replicate hlater, spent, isRead]
  · obtain ⟨hanswers, hperform⟩ := calls_of_buffered b.content later
    rw [hmake, hanswers]
    exact .inr ⟨hfailure, rfl, rfl, hperform⟩

/-- All that is ever given of a body is all of it. -/
theorem isAllOf_of_mem_answers {calls : List Call} {g : Given}
    (h : .ok g ∈ (ofBody b).answers calls) : g.IsAllOf b := by
  by_cases hb : b = .whole []
  · subst hb
    rw [ofBody, (calls_of_empty calls).1] at h
    obtain ⟨c, -, hc⟩ := List.mem_map.mp h
    obtain rfl := Except.ok.inj hc
    exact isAllOf_give rfl c
  · rw [ofBody_of_ne hb] at h
    cases calls with
    | nil => cases h
    | cons first later =>
        rcases calls_of_streaming b first later with ⟨-, hgiven, hanswers, -⟩ |
          ⟨hfailure, -, hanswers, -⟩
        · rw [hanswers] at h
          rcases List.mem_cons.mp h with hfirst | hlater
          · rw [hgiven g hfirst.symm]
            exact ⟨rfl, rfl⟩
          · cases List.eq_of_mem_replicate hlater
        · rw [hanswers] at h
          rcases List.mem_cons.mp h with hfirst | hlater
          · obtain rfl := Except.ok.inj hfirst
            exact ⟨rfl, hfailure⟩
          · obtain ⟨c, -, hc⟩ := List.mem_map.mp hlater
            obtain rfl := Except.ok.inj hc
            exact isAllOf_give hfailure c

/-- Without a body read as a whole, no more than the first call gives something. -/
theorem calls_of_unread (hb : b ≠ .whole []) {first : Call} {later : List Call}
    (h : (ofBody b).hasRead (first :: later) = false) :
    (ofBody b).answers (first :: later) =
        (first.make (ofBody b)).1 :: List.replicate later.length spent ∧
      (ofBody b).perform (first :: later) = consumed := by
  rw [ofBody_of_ne hb] at h ⊢
  rcases calls_of_streaming b first later with ⟨-, -, hanswers, hperform⟩ | ⟨-, hread, -, -⟩
  · exact ⟨hanswers, hperform⟩
  · exact absurd (h.symm.trans hread) nofun

/-- After it has been read as a whole, a body is given as often as it is asked for. -/
theorem calls_after_read (hb : b ≠ .whole []) {before : List Call}
    (h : (ofBody b).hasRead before = true) (later : List Call) :
    (ofBody b).answers (before ++ later) =
        (ofBody b).answers before ++ later.map (fun c => .ok (c.give b.content)) ∧
      (ofBody b).perform (before ++ later) = buffered b.content := by
  rw [ofBody_of_ne hb] at h ⊢
  rw [answers_append, perform_append]
  cases before with
  | nil => cases h
  | cons first rest =>
      rcases calls_of_streaming b first rest with ⟨hnone, -⟩ | ⟨-, -, -, hperform⟩
      · exact absurd (hnone.symm.trans h) nofun
      · obtain ⟨hanswers, hlast⟩ := calls_of_buffered b.content later
        rw [hperform, hanswers]
        exact ⟨rfl, hlast⟩

/-- Forwarding makes one call of the body, and sends what is given. -/
theorem outboundBody_eq (bodyLimit : Nat) (r : Request) :
    let call : Call := if Filter.isForm r then .materialize bodyLimit else .take
    (Filter.outboundBody bodyLimit r).1 = (call.make r.body).1.map Given.outbound ∧
      (Filter.outboundBody bodyLimit r).2.body = (call.make r.body).2 := by
  unfold Filter.outboundBody
  by_cases hform : Filter.isForm r = true
  · simp only [if_pos hform, Call.make]
    rcases r.body.materialize bodyLimit with ⟨_ | raw, left⟩ <;> exact ⟨rfl, rfl⟩
  · simp only [if_neg hform]
    refine ⟨?_, rfl⟩
    show r.body.take.1 = (r.body.take.1.map Given.body).map Given.outbound
    cases r.body.take.1 <;> rfl

/-- A body is given whole or not at all. Whatever calls are made of it, each that succeeds gives every
byte of it, and the error in which it breaks off. One that is known to hold nothing is given as often
as it is asked for. Any other is given once, unless it has been read as a whole: all calls after the
first find nothing left. After it has been read as a whole it is given as often as it is asked for.
To read it first fails if it is larger than the limit, and else if it breaks off; how it is cut into
chunks makes no difference. Forwarding makes one such call and sends what it is given. -/
theorem given_whole (b : Body) :
    (∀ calls g, .ok g ∈ (ofBody b).answers calls → g.IsAllOf b) ∧
    (b = .whole [] → ∀ calls, (ofBody b).perform calls = empty ∧
      (ofBody b).answers calls = calls.map fun c => .ok (c.give [])) ∧
    (b ≠ .whole [] →
      (∀ first later, (ofBody b).hasRead (first :: later) = false →
        (ofBody b).answers (first :: later) = (first.make (ofBody b)).1 ::
            List.replicate later.length (.error (.missingState .requestBody)) ∧
          (ofBody b).perform (first :: later) = consumed) ∧
      (∀ before, (ofBody b).hasRead before = true → ∀ later,
        (ofBody b).answers (before ++ later) =
            (ofBody b).answers before ++ later.map (fun c => .ok (c.give b.content)) ∧
          (ofBody b).perform (before ++ later) = buffered b.content) ∧
      ∀ limit, (ofBody b).materialize limit =
        if limit < b.content.length then (.error (.bodyTooLarge limit), consumed)
        else match b.failure with
          | some reason => (.error (.bodyRead reason), consumed)
          | none => (.ok b.content, buffered b.content)) ∧
    ∀ bodyLimit (r : Request),
      let call : Call := if Filter.isForm r then .materialize bodyLimit else .take
      (Filter.outboundBody bodyLimit r).1 = (call.make r.body).1.map Given.outbound ∧
        (Filter.outboundBody bodyLimit r).2.body = (call.make r.body).2 := by
  refine ⟨fun calls g h => isAllOf_of_mem_answers h, ?_, fun hb => ⟨?_, ?_, ?_⟩, outboundBody_eq⟩
  · rintro rfl calls
    exact (calls_of_empty calls).symm
  · exact fun first later h => calls_of_unread hb h
  · exact fun before h later => calls_after_read hb h later
  · intro limit
    rw [ofBody_of_ne hb]
    exact materialize_streaming limit b

/-- Three chunks with five bytes in all. -/
def fiveBytes : Body := .stream [[1, 2], [], [3, 4, 5]] none

/-- Five bytes are handed out once; or they are too many for the limit, and lost; or they are read,
and then there is no limit any more. -/
theorem given_whole_fiveBytes :
    (ofBody fiveBytes).answers [.take, .materialize 9, .take] =
        [.ok (.body fiveBytes), spent, spent] ∧
      (ofBody fiveBytes).answers [.materialize 4, .take] =
        [.error (.bodyTooLarge 4), spent] ∧
      (ofBody fiveBytes).answers [.materialize 5, .take, .materialize 0] =
        [.ok (.bytes [1, 2, 3, 4, 5]), .ok (.body (.whole [1, 2, 3, 4, 5])),
          .ok (.bytes [1, 2, 3, 4, 5])] := by
  obtain ⟨-, -, h, -⟩ := given_whole fiveBytes
  obtain ⟨hunread, hread, -⟩ := h (by decide)
  refine ⟨(hunread .take [.materialize 9, .take] rfl).1, ?_, ?_⟩
  · exact (hunread (.materialize 4) [.take] rfl).1
  · exact (hread [.materialize 5] rfl [.take, .materialize 0]).1

end RequestBody

end HttpGateway
