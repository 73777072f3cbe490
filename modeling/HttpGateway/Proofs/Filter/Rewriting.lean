import HttpGateway.Proofs.Filter.Definitions
import HttpGateway.Proofs.Filter.Plain
import HttpGateway.Proofs.Uri.Target
import Mathlib

/-!
# Rewritten paths

A filter that rewrites the path asks for a path, which it makes from a prefix, a template or a
substitution. The request gets it by having path and query written as one text and read again. So
a question mark or a hash in the path that is asked for ends the path that the request gets, and
what follows it goes to the query or is lost. A path without these marks is the path of the request
afterwards, and the query stays.
-/

namespace HttpGateway

namespace Uri

variable {u : Uri}

theorem path_of_ne_empty (h : u.target.path ≠ "") : u.path = u.target.path := by
  have htarget : u.hasTarget = true := by simp [hasTarget, Target.isEmpty, h]
  simp [path, htarget, Target.shownPath, h]

theorem path_of_empty (h : u.target.path = "") :
    u.path = if u.hasTarget then "/" else "" := by
  simp [path, Target.shownPath, h]

theorem isPathChar_path (h : u.target.Legal) {c : Char} (hc : c ∈ u.path.toList) :
    isPathChar c = true := by
  by_cases hpath : u.target.path = ""
  · rw [path_of_empty hpath] at hc
    split at hc
    · obtain rfl : c = '/' := by simpa using hc
      decide
    · simp at hc
  · rw [path_of_ne_empty hpath] at hc
    exact h.path c hc

theorem not_isMark_path (h : u.target.Legal) {c : Char} (hc : c ∈ u.path.toList) :
    Target.isMark c = false :=
  Target.isMark_of_isPathChar (isPathChar_path h hc)

theorem ofParts_eq_ok {scheme authority : Option String}
    (h : scheme.isSome = authority.isSome) (t : Target) :
    ofParts scheme authority t = .ok ⟨scheme, authority, t⟩ := by
  cases scheme with
  | none =>
      cases authority with
      | none => rfl
      | some _ => cases h
  | some _ =>
      cases authority with
      | none => cases h
      | some _ => rfl

theorem exists_error_of_ofParts {scheme authority : Option String}
    (h : scheme.isSome ≠ authority.isSome) (t : Target) :
    ∃ e, ofParts scheme authority t = .error e := by
  cases scheme with
  | none =>
      cases authority with
      | none => exact absurd rfl h
      | some _ => exact ⟨_, rfl⟩
  | some _ =>
      cases authority with
      | none => exact ⟨_, rfl⟩
      | some _ => exact absurd rfl h

/-- Only a URI without a target has an empty path, and it has no query either. -/
theorem query_of_path_eq_empty (h : u.path = "") : u.query = none := by
  by_cases hpath : u.target.path = ""
  · rw [path_of_empty hpath] at h
    have hnone : u.hasTarget = false := by
      by_contra hsome
      simp [hsome] at h
    obtain ⟨hempty, -⟩ := Bool.or_eq_false_iff.mp hnone
    rw [Bool.not_eq_false', Target.isEmpty, Bool.and_eq_true] at hempty
    exact Option.isNone_iff_eq_none.mp hempty.2
  · exact absurd (path_of_ne_empty hpath ▸ h) hpath

end Uri

namespace Request

variable {r r' : Request} {p : String}

/-- The second request is the first with the path that is asked for, as far as it is one: address
and query are kept, and nothing but the URI changes. The path as it is written ends before the first
mark, and just if there is none, the path is the one that is asked for and the query is the one
before. -/
structure Retargeted (r : Request) (p : String) (r' : Request) : Prop where
  others : r' = { r with uri := r'.uri }
  scheme : r'.uri.scheme = r.uri.scheme
  authority : r'.uri.authority = r.uri.authority
  legal : r'.uri.target.Legal
  written : r'.uri.target.path = String.ofList (p.toList.takeWhile fun c => !Target.isMark c)
  exact_iff : r'.path = p ∧ r'.query = r.query ↔ ∀ c ∈ p.toList, Target.isMark c = false

/-- Path and query are replaced by what is read, and that is legal whatever stood there before. -/
theorem exists_target_of_setTarget {written : String} (h : r.setTarget written = .ok r') :
    ∃ t : Target, t.Legal ∧ t.text = written.toList.takeWhile (· ≠ '#') ∧
      r' = { r with uri := { r.uri with target := t } } := by
  unfold setTarget at h
  split at h
  · cases h
  · rename_i t ht
    obtain ⟨hlegal, htext⟩ := Target.legal_of_parse ht
    refine ⟨t, hlegal, htext, ?_⟩
    unfold Uri.withTarget Uri.ofParts at h
    split at h
    · cases h
    · rename_i uri huri
      split at huri <;> cases huri
      cases h
      rfl

theorem setPath_eq_setTarget (r : Request) (p : String) :
    r.setPath p = r.setTarget (String.ofList (Target.text ⟨p, r.query⟩)) := by
  rw [setPath]
  congr 1
  rw [← String.toList_inj, String.toList_ofList]
  cases r.query <;> simp [Target.text, Target.queryText]

/-- A legal target is taken as it is written, unless the URI is a scheme or an authority alone. -/
theorem setTarget_text {t : Target} {first : Char}
    (hform : r.uri.scheme.isSome = r.uri.authority.isSome) (ht : t.Legal)
    (hhead : t.text.head? = some first) (hfirst : first = '/' ∨ first = '?' ∨ first = '#') :
    r.setTarget (String.ofList t.text) = .ok { r with uri := { r.uri with target := t } } := by
  have hread : Target.parse (String.ofList t.text) = .ok t := by
    rw [Target.parse_of_head (by rwa [String.toList_ofList]) hfirst, Target.scan_eq_ok_iff,
      String.toList_ofList]
    exact ⟨ht, (Target.takeWhile_hash_text (fun c hc => ht.not_isMark hc)
      fun c hc => ht.ne_hash hc).symm⟩
  have hjoin : r.uri.withTarget t = .ok { r.uri with target := t } := Uri.ofParts_eq_ok hform t
  rw [setTarget, hread]
  simp only [hjoin]

/-- A path that may be written is accepted, unless the URI is a scheme or an authority alone. -/
theorem setPath_of_isPathChar (hr : r.uri.target.Legal)
    (hform : r.uri.scheme.isSome = r.uri.authority.isSome) (hslash : p.toList.head? = some '/')
    (hp : ∀ c ∈ p.toList, isPathChar c = true) :
    r.setPath p = .ok { r with uri := { r.uri with target := ⟨p, r.query⟩ } } := by
  have hhead : (Target.text ⟨p, r.query⟩).head? = some '/' := by
    obtain ⟨rest, hrest⟩ := List.head?_eq_some_iff.mp hslash
    simp [Target.text, hrest]
  rw [setPath_eq_setTarget]
  exact setTarget_text hform ⟨hp, hr.query⟩ hhead (.inl rfl)

theorem retargeted_of_setPath (hr : r.uri.target.Legal) (hp : p ≠ "")
    (h : r.setPath p = .ok r') : r.Retargeted p r' := by
  rw [setPath_eq_setTarget] at h
  obtain ⟨t, hlegal, htext, rfl⟩ := exists_target_of_setTarget h
  rw [String.toList_ofList] at htext
  have hpath : t.path.toList = p.toList.takeWhile fun c => !Target.isMark c :=
    (hlegal.path_eq htext).trans (Target.takeWhile_text _)
  refine ⟨rfl, rfl, rfl, hlegal, ?_, ?_, ?_⟩
  · rw [← hpath, String.ofList_toList]
  · rintro ⟨hsame, -⟩ c hc
    rw [← hsame] at hc
    exact Uri.not_isMark_path hlegal hc
  · intro hfree
    -- Without a mark all of what is written comes before a fragment.
    have hkept := htext.trans (Target.takeWhile_hash_text hfree fun c hc => hr.ne_hash hc)
    have hmark : '?' ∉ p.toList := fun hmem => absurd (hfree _ hmem) (by decide)
    obtain rfl := Target.eq_of_text_eq hlegal.not_mem_path hmark hkept
    exact ⟨Uri.path_of_ne_empty hp, rfl⟩

end Request

/-! ### Templates -/

namespace PathTemplate

/-- A template that has been read starts with a literal that starts with a slash. -/
theorem exists_parts_of_parse {written : String} {t : PathTemplate} (h : parse written = .ok t) :
    ∃ first parts, t.parts = .literal (String.ofList ('/' :: first)) :: parts := by
  unfold parse at h
  split at h
  · rename_i hslash
    obtain ⟨rest, hrest⟩ := List.head?_eq_some_iff.mp hslash
    obtain ⟨parts, hparts, rfl⟩ := map_eq_ok_iff.mp h
    rw [hrest, scan, Text.cut, if_neg (by decide)] at hparts
    cases hopen : Text.cut '\x7b' rest with
    | none =>
        simp only [hopen, Option.map_none] at hparts
        split at hparts <;> cases hparts
        exact ⟨rest, [], rfl⟩
    | some pieces =>
        simp only [hopen, Option.map_some] at hparts
        split at hparts
        · cases hparts
        · split at hparts
          · cases hparts
          · obtain ⟨others, -, rfl⟩ := map_eq_ok_iff.mp hparts
            exact ⟨pieces.1, _, rfl⟩
  · cases h

theorem ne_empty_of_expand {written path : String} {t : PathTemplate}
    {value? : String → Option String} (h : parse written = .ok t)
    (hpath : t.expand value? = some path) : path ≠ "" := by
  obtain ⟨first, parts, hparts⟩ := exists_parts_of_parse h
  obtain ⟨texts, htexts, rfl⟩ := Option.map_eq_some_iff.mp hpath
  rw [hparts, List.mapM_cons] at htexts
  obtain ⟨text, htext, htexts⟩ := Option.bind_eq_some_iff.mp htexts
  obtain ⟨others, -, htexts⟩ := Option.bind_eq_some_iff.mp htexts
  obtain rfl := Option.some.inj htext
  obtain rfl := Option.some.inj htexts
  rw [String.join_cons]
  intro hempty
  simpa using congrArg String.toList hempty

end PathTemplate

/-- The template of a filter has been read from the arguments. -/
theorem FilterSpec.exists_parse_of_build {bodyLimit : Nat} {spec : FilterSpec} {t : PathTemplate}
    (h : spec.build bodyLimit = .ok (.request (.setPath t))) :
    ∃ written, PathTemplate.parse written = .ok t := by
  cases spec with
  | setPath written =>
      rw [build] at h
      split at h <;> cases h
      exact ⟨written, by assumption⟩
  | addRequestParameter | prefixPath | rewritePath =>
      rw [build] at h
      split at h <;> cases h
  | addRequestHeader | addResponseHeader | setResponseHeader | secureHeaders =>
      rw [build] at h
      obtain ⟨_, -, h⟩ := bind_eq_ok_iff.mp h
      cases h
  | removeRequestHeader | removeResponseHeader | setStatus | retry | rateLimiter =>
      rw [build] at h
      obtain ⟨_, -, h⟩ := map_eq_ok_iff.mp h
      cases h
  | removeNonProxyHeaders names =>
      cases names with
      | none => cases h
      | some names =>
          obtain ⟨_, -, h⟩ := map_eq_ok_iff.mp h
          cases h
  | redirectTo =>
      rw [build] at h
      obtain ⟨_, -, h⟩ := bind_eq_ok_iff.mp h
      dsimp only at h
      split at h
      · obtain ⟨_, hfail, -⟩ := bind_eq_ok_iff.mp h
        cases hfail
      · split at h <;> cases h

/-! ### The filters -/

variable {τ : Type}

namespace RequestEdit

variable {e : RequestEdit}

/-- The path that an edit asks for, or none if the path is to stay. A template whose variables do
not all have values asks for nothing, and that is an error. -/
def asked (e : RequestEdit) (x : Exchange) : Except GatewayError (Option String) :=
  match e with
  | .prefixPath start => .ok (some (start ++ x.request.path))
  | .rewritePath pattern replacement =>
    let rewritten := pattern.replaceAll x.request.path replacement
    if rewritten = x.request.path then .ok none
    else .ok (some (if rewritten = "" then "/" else rewritten))
  | .setPath template =>
    match template.expand fun name => x.pathMatch.bind fun m => m.captured.get? name with
    | some path => .ok (some path)
    | none => .error (.missingState .templateVariable)
  | _ => .ok none

theorem apply_of_isRewrite (h : e.isRewrite = true) (x : Exchange) :
    e.apply x = match e.asked x with
      | .ok none => (.ok (), x)
      | .ok (some path) => rewrite x path
      | .error err => (.error err, x) := by
  cases e with
  | prefixPath start => rfl
  | rewritePath pattern replacement =>
      simp only [apply, asked]
      split <;> rfl
  | setPath template =>
      simp only [apply, asked]
      cases template.expand fun name => x.pathMatch.bind fun m => m.captured.get? name <;> rfl
  | _ => simp [isRewrite] at h

/-- A path is asked for that is not empty, unless the request has none itself. -/
theorem setPath_empty_of_asked {bodyLimit : Nat} {d : FilterDefinition} {x : Exchange}
    (hd : Filter.ofDefinition bodyLimit d = .ok (.request e)) (h : e.asked x = .ok (some "")) :
    ∃ err, x.request.setPath "" = .error err := by
  obtain ⟨spec, -, hspec⟩ := Filter.ofDefinition_eq_ok_iff.mp hd
  cases e with
  | prefixPath start =>
      -- Then the path of the request is empty as well.
      obtain ⟨-, hpath⟩ := String.append_eq_empty_iff.mp (Option.some.inj (Except.ok.inj h))
      have hquery : x.request.query = none := Uri.query_of_path_eq_empty hpath
      simp [Request.setPath, hquery, Request.setTarget, Target.parse]
  | rewritePath pattern replacement =>
      simp only [asked] at h
      split at h
      · cases h
      · have hempty := Option.some.inj (Except.ok.inj h)
        split at hempty
        · exact absurd hempty (by decide)
        · exact absurd hempty (by assumption)
  | setPath template =>
      obtain ⟨written, hwritten⟩ := FilterSpec.exists_parse_of_build hspec
      simp only [asked] at h
      split at h
      · rename_i path hpath
        cases h
        exact absurd rfl (PathTemplate.ne_empty_of_expand hwritten hpath)
      · cases h
  | _ => cases h

end RequestEdit

namespace Filter

/-- The filter goes on with this request; the rest of the chain may be any. Besides the request only
the record of addresses may have changed. -/
def HandsOn [TokenArithmetic τ] (f : Filter) (s : Scene τ) (r : Request) : Prop :=
  ∃ urls, ∀ next, f.run next s =
    next { s with exchange := { s.exchange with request := r, originalUrls := urls } }

/-- The filter fails, and the rest of the chain is not run. The request is as it was. -/
def GivesUp [TokenArithmetic τ] (f : Filter) (s : Scene τ) (e : GatewayError) : Prop :=
  ∃ urls, ∀ next, f.run next s =
    (.error e, { s with exchange := { s.exchange with originalUrls := urls } })

variable [TokenArithmetic τ] {s : Scene τ} {e : RequestEdit}

variable {r : Request} {urls : List Uri} {err : GatewayError}

theorem handsOn_of_apply (h : e.apply s.exchange =
    (.ok (), { s.exchange with request := r, originalUrls := urls })) :
    (Filter.request e).HandsOn s r :=
  ⟨urls, fun next => by simp only [run, RequestEdit.run, h]⟩

theorem givesUp_of_apply (h : e.apply s.exchange =
    (.error err, { s.exchange with originalUrls := urls })) : (Filter.request e).GivesUp s err :=
  ⟨urls, fun next => by simp only [run, RequestEdit.run, h]⟩

/-- What becomes of a path that is asked for is decided by the request. -/
theorem outcome_of_rewrite {path : String}
    (h : e.apply s.exchange = RequestEdit.rewrite s.exchange path) :
    match s.exchange.request.setPath path with
    | .ok r => (Filter.request e).HandsOn s r
    | .error err => (Filter.request e).GivesUp s err := by
  rw [RequestEdit.rewrite, Exchange.recordOriginalUrl_eq] at h
  cases hset : s.exchange.request.setPath path with
  | ok r => exact handsOn_of_apply (by rw [h, hset]; rfl)
  | error err => exact givesUp_of_apply (by rw [h, hset]; rfl)

/-- A filter that rewrites the path, made from an accepted definition, asks for a path, or leaves it
as it is and goes on with the request as it came, or has no value for a variable and fails. If it
asks for a path it goes on with the request that has this path, as far as it is one, or it fails
because it is none. So does every change of the path of a request to one that is not empty. The
target of the request is legal, as it is in all that has been read as a URI, and it stays so. -/
theorem path_is_as_asked {bodyLimit : Nat} {d : FilterDefinition}
    (hd : ofDefinition bodyLimit d = .ok (.request e)) (he : e.isRewrite = true) (s : Scene τ)
    (hs : s.exchange.request.uri.target.Legal) :
    (match e.asked s.exchange with
      | .ok none => (Filter.request e).HandsOn s s.exchange.request
      | .ok (some path) => match s.exchange.request.setPath path with
        | .ok r => s.exchange.request.Retargeted path r ∧ (Filter.request e).HandsOn s r
        | .error err => (Filter.request e).GivesUp s err
      | .error err => (Filter.request e).GivesUp s err) ∧
    ∀ r : Request, r.uri.target.Legal → ∀ path r', path ≠ "" → r.setPath path = .ok r' →
      r.Retargeted path r' := by
  refine ⟨?_, fun r hr path r' hpath h => Request.retargeted_of_setPath hr hpath h⟩
  have hedit := RequestEdit.apply_of_isRewrite he s.exchange
  split
  · rename_i hasked
    rw [hasked] at hedit
    exact handsOn_of_apply hedit
  · rename_i path hasked
    rw [hasked] at hedit
    have houtcome := outcome_of_rewrite hedit
    split
    · rename_i r hr
      have hpath : path ≠ "" := by
        rintro rfl
        obtain ⟨err, herr⟩ := RequestEdit.setPath_empty_of_asked hd hasked
        exact absurd (hr.symm.trans herr) nofun
      rw [hr] at houtcome
      exact ⟨Request.retargeted_of_setPath hs hpath hr, houtcome⟩
    · rename_i hr
      rw [hr] at houtcome
      exact houtcome
  · rename_i hasked
    rw [hasked] at hedit
    exact givesUp_of_apply hedit

/-- A request for a URI. -/
def askingFor (uri : Uri) : Scene Rat where
  exchange := { request := { uri } }
  world := { limiter := .empty }

/-- A prefix comes before the path, and the query stays. -/
theorem path_is_as_asked_of_prefix :
    ∃ r, (Filter.request (.prefixPath "/v1")).HandsOn
        (askingFor ⟨none, none, ⟨"/x", some "y=1"⟩⟩) r ∧
      r.path = "/v1/x" ∧ r.query = some "y=1" := by
  let s := askingFor ⟨none, none, ⟨"/x", some "y=1"⟩⟩
  let r : Request := { uri := ⟨none, none, ⟨"/v1/x", some "y=1"⟩⟩ }
  have hd : ofDefinition 1024 ⟨"PrefixPath", [("prefix", .str "/v1/")], none⟩ =
      .ok (.request (.prefixPath "/v1")) := by cbv
  have hs : s.exchange.request.uri.target.Legal :=
    Uri.legal_of_parse (show Uri.parse "/x?y=1" = .ok s.exchange.request.uri by rfl)
  have hset : s.exchange.request.setPath "/v1/x" = .ok r :=
    Request.setPath_of_isPathChar hs rfl (by rfl) (by simp [isPathChar])
  have hgoes := (path_is_as_asked hd rfl s hs).1
  have hasked : (RequestEdit.prefixPath "/v1").asked s.exchange = .ok (some "/v1/x") := by rfl
  simp only [hasked, hset] at hgoes
  obtain ⟨hpath, hquery⟩ := hgoes.1.exact_iff.mpr (by simp [Target.isMark])
  exact ⟨r, hgoes.2, hpath, hquery⟩

/-- A question mark in the prefix ends the path, and what follows it comes before the query. -/
theorem path_is_as_asked_fails :
    let edit := RequestEdit.prefixPath "/a?b"
    let s := askingFor ⟨none, none, ⟨"/x", some "y=1"⟩⟩
    ofDefinition 1024 ⟨"PrefixPath", [("prefix", .str "/a?b")], none⟩ = .ok (.request edit) ∧
      edit.asked s.exchange = .ok (some "/a?b/x") ∧
      ∃ r, (Filter.request edit).HandsOn s r ∧ r.path = "/a" ∧ r.query = some "b/x?y=1" ∧
        r.path ≠ "/a?b/x" ∧ r.query ≠ s.exchange.request.query := by
  intro edit s
  let r : Request := { uri := ⟨none, none, ⟨"/a", some "b/x?y=1"⟩⟩ }
  have hset : s.exchange.request.setPath "/a?b/x" = .ok r := by cbv
  have hgoes : (Filter.request edit).HandsOn s r := by
    have hedit : edit.apply s.exchange = RequestEdit.rewrite s.exchange "/a?b/x" := by rfl
    have houtcome := outcome_of_rewrite hedit
    rw [hset] at houtcome
    exact houtcome
  exact ⟨by cbv, by rfl, r, hgoes, by rfl, by rfl, by decide, by decide⟩

end Filter

end HttpGateway
