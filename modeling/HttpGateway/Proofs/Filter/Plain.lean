import HttpGateway.Filter.Chain

/-!
# Plain filters

Most filters edit the request on its way to the backend, or the response on its way back, and run
the rest of the chain exactly once. A stretch of such filters amounts to one pass over the request
before the rest and one over the response after it. What the pass over the request does depends on
the request and the match of its path alone. It changes nothing but address and headers, and keeps a
record of addresses, which a second pass leaves as it is.
-/

namespace HttpGateway

variable {τ : Type}

/-- Whether the filter edits the request or the response and does nothing else. -/
def Filter.isPlain : Filter → Bool
  | .request _ => true
  | .response _ => true
  | _ => false

/-- Whether the edit keeps the address that it replaces. -/
def RequestEdit.isRewrite : RequestEdit → Bool
  | .prefixPath _ => true
  | .rewritePath _ _ => true
  | .setPath _ => true
  | _ => false

/-- Whether the filter rewrites the path of the request. -/
def Filter.isRewrite : Filter → Bool
  | .request edit => edit.isRewrite
  | _ => false

/-- The edits of the request, in the order of the filters, up to the first that fails. -/
def requestPass : List OrderedFilter → Exchange → Outcome × Exchange
  | [], x => (.ok (), x)
  | ⟨_, .request edit⟩ :: rest, x => match edit.apply x with
    | (.ok (), x) => requestPass rest x
    | (.error e, x) => (.error e, x)
  | _ :: rest, x => requestPass rest x

/-- The edits of the response, the last filter first. -/
def responsePass : List OrderedFilter → Response → Response
  | [], r => r
  | ⟨_, .response edit⟩ :: rest, r => edit.apply (responsePass rest r)
  | _ :: rest, r => responsePass rest r

/-- Passes over the request, goes on, and passes over the response if that succeeds. -/
def passThen (filters : List OrderedFilter) (next : Stage τ) : Stage τ := fun s =>
  match requestPass filters s.exchange with
  | (.error e, x) => (.error e, { s with exchange := x })
  | (.ok (), x) => match next { s with exchange := x } with
    | (.ok (), s) => (.ok (), s.mapResponse (responsePass filters))
    | (.error e, s) => (.error e, s)

/-- Plain filters before the rest of a chain are one pass there and one back. -/
theorem runChain_append_of_plain [TokenArithmetic τ] {filters : List OrderedFilter}
    (rest : List OrderedFilter) (h : ∀ f ∈ filters, f.filter.isPlain = true) (s : Scene τ) :
    runChain (filters ++ rest) s = passThen filters (runChain rest) s := by
  induction filters generalizing s with
  | nil =>
      simp only [List.nil_append, passThen, requestPass]
      rcases runChain rest s with ⟨_ | ⟨⟨⟩⟩, _⟩ <;> rfl
  | cons f filters ih =>
      have ih := ih fun g hg => h g (List.mem_cons_of_mem _ hg)
      rcases f with ⟨order, filter⟩
      cases filter with
      | request edit =>
          simp only [List.cons_append, runChain, Filter.run, RequestEdit.run, passThen, requestPass]
          rcases edit.apply s.exchange with ⟨_ | ⟨⟨⟩⟩, x⟩
          · rfl
          · simp only [ih, passThen, responsePass]
      | response edit =>
          simp only [List.cons_append, runChain, Filter.run, ResponseEdit.run, ih, passThen,
            requestPass, responsePass]
          rcases requestPass filters s.exchange with ⟨_ | ⟨⟨⟩⟩, x⟩
          · rfl
          · dsimp only
            rcases runChain rest { s with exchange := x } with ⟨_ | ⟨⟨⟩⟩, _⟩ <;> rfl
      | _ => exact absurd (h _ List.mem_cons_self) (by simp [Filter.isPlain])

theorem runChain_of_plain [TokenArithmetic τ] {filters : List OrderedFilter}
    (h : ∀ f ∈ filters, f.filter.isPlain = true) (s : Scene τ) :
    runChain filters s = passThen filters (fun s => (.ok (), s)) s := by
  simpa [runChain] using runChain_append_of_plain [] h s

/-! ### Edits of a response -/

theorem ResponseEdit.body_apply (e : ResponseEdit) (r : Response) : (e.apply r).body = r.body := by
  cases e with
  | setStatus s => exact r.body_setStatus s
  | _ => exact r.body_editHeaders _

theorem ResponseEdit.apply_of_committed (e : ResponseEdit) {r : Response}
    (h : r.isCommitted = true) : e.apply r = r := by
  cases e with
  | setStatus s => exact Response.setStatus_of_committed h s
  | _ => exact Response.editHeaders_of_committed h _

/-! ### The record of addresses -/

theorem Uri.same_refl (u : Uri) : u.same u = true := by
  simp [same]

/-- Adds an address to a record, unless the same one is in it. -/
def keepUrl (urls : List Uri) (u : Uri) : List Uri :=
  if urls.any fun v => v.same u then urls else urls ++ [u]

def keepUrls (urls trail : List Uri) : List Uri := trail.foldl keepUrl urls

theorem Exchange.recordOriginalUrl_eq (x : Exchange) :
    x.recordOriginalUrl = { x with originalUrls := keepUrl x.originalUrls x.request.uri } := by
  unfold recordOriginalUrl keepUrl
  split <;> rfl

theorem prefix_keepUrl (urls : List Uri) (u : Uri) : urls <+: keepUrl urls u := by
  unfold keepUrl
  split
  · exact List.prefix_refl urls
  · exact List.prefix_append urls [u]

theorem prefix_keepUrls (urls trail : List Uri) : urls <+: keepUrls urls trail := by
  induction trail generalizing urls with
  | nil => exact List.prefix_refl urls
  | cons u trail ih => exact (prefix_keepUrl urls u).trans (ih _)

theorem keepUrls_append (urls trail trail' : List Uri) :
    keepUrls urls (trail ++ trail') = keepUrls (keepUrls urls trail) trail' :=
  List.foldl_append

/-- A record that holds what another one comes to holds the address already. -/
theorem keepUrl_of_subset {urls known : List Uri} {u : Uri} (h : keepUrl urls u ⊆ known) :
    keepUrl known u = known := by
  suffices hany : known.any (fun v => v.same u) = true by rw [keepUrl, if_pos hany]
  by_cases hany : urls.any (fun v => v.same u) = true
  · rw [keepUrl, if_pos hany] at h
    obtain ⟨v, hv, hsame⟩ := List.any_eq_true.mp hany
    exact List.any_eq_true.mpr ⟨v, h hv, hsame⟩
  · rw [keepUrl, if_neg hany] at h
    exact List.any_eq_true.mpr ⟨u, h (by simp), u.same_refl⟩

theorem keepUrls_of_subset {urls known trail : List Uri} (h : keepUrls urls trail ⊆ known) :
    keepUrls known trail = known := by
  induction trail generalizing urls with
  | nil => rfl
  | cons u trail ih =>
      have hfirst : keepUrl urls u ⊆ known := fun v hv => h ((prefix_keepUrls _ trail).subset hv)
      show keepUrls (keepUrl known u) trail = known
      rw [keepUrl_of_subset hfirst]
      exact ih h

/-! ### What a pass over the request comes to -/

/-- What edits of a request come to: how they end, the addresses they keep, and the address and
headers they leave. -/
structure Passage where
  outcome : Outcome
  trail : List Uri
  uri : Uri
  headers : Headers

namespace Passage

/-- The exchange after the edits. -/
def apply (p : Passage) (x : Exchange) : Outcome × Exchange :=
  (p.outcome, { x with
    request := { x.request with uri := p.uri, headers := p.headers }
    originalUrls := keepUrls x.originalUrls p.trail })

/-- The edits do not blame the backend when they fail. -/
def Blameless (p : Passage) : Prop := ∀ e, p.outcome = .error e → e.isUpstream = false

end Passage

/-- Whatever agrees with an exchange in its request and the match of its path is edited like it. -/
def Passage.Covers (p : Passage) (edit : Exchange → Outcome × Exchange) (x : Exchange) : Prop :=
  ∀ y : Exchange, y.request = x.request → y.pathMatch = x.pathMatch → edit y = p.apply y

theorem Request.setTarget_cases (r : Request) (text : String) :
    (∃ uri, r.setTarget text = .ok { r with uri }) ∨
      ∃ e, r.setTarget text = .error e ∧ e.isUpstream = false := by
  unfold setTarget
  split
  · exact .inr ⟨_, rfl, rfl⟩
  · split
    · exact .inr ⟨_, rfl, rfl⟩
    · exact .inl ⟨_, rfl⟩

/-- Another target for the request, with some addresses kept before. -/
theorem RequestEdit.exists_passage_replace (x : Exchange)
    (retarget : Request → Except GatewayError Request) {text : String}
    (h : retarget x.request = x.request.setTarget text) (trail : List Uri) :
    ∃ p : Passage, p.trail = trail ∧ p.Blameless ∧ p.Covers (fun y => replaceRequest
      { y with originalUrls := keepUrls y.originalUrls trail } (retarget y.request)) x := by
  rcases x.request.setTarget_cases text with ⟨uri, hr⟩ | ⟨e, hr, he⟩
  · refine ⟨⟨.ok (), trail, uri, x.request.headers⟩, rfl, nofun, fun y hy _ => ?_⟩
    simp only [hy, h, hr, replaceRequest, Passage.apply]
  · refine ⟨⟨.error e, trail, x.request.uri, x.request.headers⟩, rfl, ?_, fun y hy _ => ?_⟩
    · rintro _ ⟨⟩
      exact he
    · simp only [hy, h, hr, replaceRequest, Passage.apply]

/-- Another path, with the present address kept before. -/
theorem RequestEdit.exists_passage_rewrite (x : Exchange) (path : String) :
    ∃ p : Passage, p.Blameless ∧ p.Covers (fun y => rewrite y path) x := by
  obtain ⟨p, -, hp, hcovers⟩ :=
    exists_passage_replace x (fun r => r.setPath path) rfl [x.request.uri]
  refine ⟨p, hp, fun y hy hm => ?_⟩
  rw [← hcovers y hy hm]
  simp only [rewrite, y.recordOriginalUrl_eq, keepUrls, List.foldl_cons, List.foldl_nil, ← hy]

/-- Every edit is a passage, and only those that rewrite the path keep addresses. -/
theorem RequestEdit.exists_passage (e : RequestEdit) (x : Exchange) :
    ∃ p : Passage, p.Blameless ∧ p.Covers e.apply x ∧ (e.isRewrite = false → p.trail = []) := by
  have headers (edit : Headers → Headers) : ∃ p : Passage, p.Blameless ∧
      p.Covers (fun y => (.ok (), y.mapRequestHeaders edit)) x ∧ p.trail = [] := by
    refine ⟨⟨.ok (), [], x.request.uri, edit x.request.headers⟩, nofun, fun y hy _ => ?_, rfl⟩
    simp [Passage.apply, Exchange.mapRequestHeaders, Exchange.mapRequest, keepUrls, ← hy]
  cases e with
  | addHeader n v | removeHeader n | removeHeaders ns | stripHopByHop =>
      obtain ⟨p, hp, hcovers, htrail⟩ := headers _
      exact ⟨p, hp, hcovers, fun _ => htrail⟩
  | addParameter f =>
      obtain ⟨p, htrail, hp, hcovers⟩ :=
        exists_passage_replace x (fun r => r.setQuery (some (Form.appendField r.query f))) rfl []
      refine ⟨p, hp, fun y hy hm => ?_, fun _ => htrail⟩
      rw [← hcovers y hy hm]
      simp only [apply, keepUrls, List.foldl_nil]
  | prefixPath start =>
      obtain ⟨p, hp, hcovers⟩ := exists_passage_rewrite x (start ++ x.request.path)
      refine ⟨p, hp, fun y hy hm => ?_, nofun⟩
      rw [← hcovers y hy hm]
      simp only [apply, hy]
  | rewritePath pattern replacement =>
      by_cases hsame : pattern.replaceAll x.request.path replacement = x.request.path
      · obtain ⟨p, hp, hcovers, htrail⟩ := headers id
        refine ⟨p, hp, fun y hy hm => ?_, fun _ => htrail⟩
        rw [← hcovers y hy hm]
        simp only [apply, hy, if_pos hsame]
        rfl
      · obtain ⟨p, hp, hcovers⟩ :=
          exists_passage_rewrite x (substitute pattern replacement x.request.path)
        refine ⟨p, hp, fun y hy hm => ?_, nofun⟩
        rw [← hcovers y hy hm]
        simp only [apply, hy, if_neg hsame]
  | setPath template =>
      cases hpath : template.expand fun name => x.pathMatch.bind fun m => m.captured.get? name with
      | none =>
          refine ⟨⟨.error (.missingState .templateVariable), [], x.request.uri, x.request.headers⟩,
            ?_, fun y hy hm => ?_, nofun⟩
          · rintro _ ⟨⟩
            rfl
          · rw [← hm] at hpath
            simp [apply, hpath, Passage.apply, keepUrls, ← hy]
      | some path =>
          obtain ⟨p, hp, hcovers⟩ := exists_passage_rewrite x path
          refine ⟨p, hp, fun y hy hm => ?_, nofun⟩
          rw [← hcovers y hy hm]
          simp only [apply, hm, hpath]

/-- A pass over the request is a passage, and keeps addresses only if a path is rewritten. -/
theorem exists_passage (filters : List OrderedFilter) (x : Exchange) :
    ∃ p : Passage, p.Blameless ∧ p.Covers (requestPass filters) x ∧
      ((∀ f ∈ filters, f.filter.isRewrite = false) → p.trail = []) := by
  induction filters generalizing x with
  | nil =>
      refine ⟨⟨.ok (), [], x.request.uri, x.request.headers⟩, nofun, fun y hy _ => ?_, fun _ => rfl⟩
      simp [Passage.apply, requestPass, keepUrls, ← hy]
  | cons f filters ih =>
      rcases f with ⟨order, filter⟩
      cases filter with
      | request edit =>
          obtain ⟨p, hp, hcovers, htrail⟩ := edit.exists_passage x
          cases hout : p.outcome with
          | error e =>
              -- The pass ends here.
              refine ⟨p, hp, fun y hy hm => ?_, fun h => htrail (h _ List.mem_cons_self)⟩
              simp only [requestPass, hcovers y hy hm, Passage.apply, hout]
          | ok _ =>
              -- What the edit keeps comes before what the rest keeps.
              obtain ⟨q, hq, hcovers', htrail'⟩ := ih (p.apply x).2
              refine ⟨⟨q.outcome, p.trail ++ q.trail, q.uri, q.headers⟩, hq, fun y hy hm => ?_,
                fun h => ?_⟩
              · have hrest := hcovers' (p.apply y).2 (by simp [Passage.apply, hy]) hm
                simp only [Passage.apply, keepUrls_append] at hrest ⊢
                simp only [requestPass, hcovers y hy hm, Passage.apply, hout, hrest]
              · show p.trail ++ q.trail = []
                rw [htrail (h _ List.mem_cons_self),
                  htrail' fun g hg => h g (List.mem_cons_of_mem _ hg)]
                rfl
      | _ =>
          obtain ⟨p, hp, hcovers, htrail⟩ := ih x
          exact ⟨p, hp, hcovers, fun h => htrail fun g hg => h g (List.mem_cons_of_mem _ hg)⟩

end HttpGateway
