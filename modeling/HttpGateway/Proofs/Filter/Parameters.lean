import HttpGateway.Predicate.Basic
import HttpGateway.Proofs.Filter.Rewriting
import HttpGateway.Proofs.Form

/-!
# Added parameters

A filter that adds a parameter writes it behind the query, and has path and query read again as one
text. The text of the parameter is plain enough that nothing else is read otherwise than before: the
fields of the query are the ones before and the new one. Only a path that is empty, which a URI can
have without a query but not with one, becomes a slash.
-/

namespace HttpGateway

/-- The text of a field consists of characters that may stand in a query. -/
theorem Form.isQueryChar_fieldText (f : Field) : ∀ c ∈ (fieldText f).toList, isQueryChar c = true := by
  have hbyte : ∀ b, isCoded b = true ∨ b = 0x3D → isQueryChar (Char.ofNat b.toNat) = true :=
    forall_byte (by decide +kernel)
  intro c hc
  rw [fieldText, String.toList_ofList] at hc
  obtain ⟨b, hb, rfl⟩ := List.mem_map.mp hc
  exact hbyte b (isCoded_of_mem_encodeField hb)

theorem Form.isQueryChar_appendField {query : Option String} (f : Field)
    (h : ∀ q, query = some q → ∀ c ∈ q.toList, isQueryChar c = true) :
    ∀ c ∈ (appendField query f).toList, isQueryChar c = true := by
  rw [appendField_eq]
  cases query with
  | none => exact isQueryChar_fieldText f
  | some q =>
      dsimp only
      split
      · exact isQueryChar_fieldText f
      · intro c hc
        rw [String.toList_append, String.toList_append, List.mem_append, List.mem_append] at hc
        rcases hc with (hc | hc) | hc
        · exact h q rfl c hc
        · obtain rfl : c = '&' := by simpa using hc
          decide
        · exact isQueryChar_fieldText f c hc

namespace Request

variable {r r' r'' : Request} {fields later : List Form.Field} {q : String}

/-- The request can be given a query: its path is empty or starts with a slash, and its URI is not
an authority alone. -/
def TakesQuery (r : Request) : Prop :=
  (r.path = "" ∨ r.path.toList.head? = some '/') ∧ r.uri.scheme.isSome = r.uri.authority.isSome

instance (r : Request) : Decidable r.TakesQuery := inferInstanceAs (Decidable (_ ∧ _))

theorem setQuery_eq_setTarget (hq : q ≠ "") :
    r.setQuery (some q) = r.setTarget (String.ofList (Target.text ⟨r.path, some q⟩)) := by
  have hwritten : r.path ++ "?" ++ q = String.ofList (Target.text ⟨r.path, some q⟩) := by
    rw [← String.toList_inj, String.toList_ofList]
    simp [Target.text, Target.queryText]
  rw [setQuery]
  simp only [if_neg hq, hwritten]

theorem setQuery_of_takesQuery (hr : r.uri.target.Legal) (h : r.TakesQuery) (hne : q ≠ "")
    (hq : ∀ c ∈ q.toList, isQueryChar c = true) :
    r.setQuery (some q) = .ok { r with uri := { r.uri with target := ⟨r.path, some q⟩ } } := by
  have hlegal : Target.Legal ⟨r.path, some q⟩ := by
    refine ⟨fun c hc => Uri.isPathChar_path hr hc, ?_⟩
    rintro _ ⟨rfl⟩
    exact hq
  rw [setQuery_eq_setTarget hne]
  rcases h.1 with hempty | hslash
  · have hhead : (Target.text ⟨r.path, some q⟩).head? = some '?' := by
      simp [Target.text, Target.queryText, hempty]
    exact setTarget_text h.2 hlegal hhead (.inr (.inl rfl))
  · have hhead : (Target.text ⟨r.path, some q⟩).head? = some '/' := by
      obtain ⟨rest, hrest⟩ := List.head?_eq_some_iff.mp hslash
      simp [Target.text, hrest]
    exact setTarget_text h.2 hlegal hhead (.inl rfl)

/-- A target is read only if it starts with a slash, or with what ends an empty path. -/
theorem takesQuery_path_of_parse {t : Target} (hr : r.uri.target.Legal)
    (h : Target.parse (String.ofList (Target.text ⟨r.path, some q⟩)) = .ok t) :
    r.path = "" ∨ r.path.toList.head? = some '/' := by
  cases hpath : r.path.toList with
  | nil => exact .inl (String.toList_eq_nil_iff.mp hpath)
  | cons c rest =>
      refine .inr (congrArg some ?_)
      have hmark : Target.isMark c = false := Uri.not_isMark_path hr (by
        show c ∈ r.path.toList
        rw [hpath]
        exact List.mem_cons_self)
      have hhead := Target.head_of_parse h
      rw [String.toList_ofList, Target.text, hpath, Target.queryText] at hhead
      rcases hhead with hstar | ⟨first, after, heq, hfirst⟩
      · simp at hstar
      · obtain ⟨rfl, -⟩ := List.cons.inj heq
        exact hfirst.resolve_right fun h => absurd (Target.isMark_iff.mpr h) (by simp [hmark])

theorem exists_error_of_setQuery (hr : r.uri.target.Legal) (h : ¬r.TakesQuery) (hne : q ≠ "") :
    ∃ e, r.setQuery (some q) = .error e := by
  rw [setQuery_eq_setTarget hne, setTarget]
  cases hread : Target.parse (String.ofList (Target.text ⟨r.path, some q⟩)) with
  | error e => exact ⟨_, rfl⟩
  | ok t =>
      have hform : r.uri.scheme.isSome ≠ r.uri.authority.isSome := fun hform =>
        h ⟨takesQuery_path_of_parse hr hread, hform⟩
      obtain ⟨e, hjoin⟩ := Uri.exists_error_of_ofParts hform t
      have hjoin : r.uri.withTarget t = .error e := hjoin
      simp only [hjoin]
      exact ⟨_, rfl⟩

/-- The second request is the first with these fields behind those of its query. Nothing else but
headers may have changed, except that a path which is empty cannot be kept beside a query. -/
structure Extends (r : Request) (fields : List Form.Field) (r' : Request) : Prop where
  others : r' = { r with uri := r'.uri, headers := r'.headers }
  params : r'.queryParams = r.queryParams ++ fields
  path : r'.path = if r.path = "" ∧ fields ≠ [] then "/" else r.path
  scheme : r'.uri.scheme = r.uri.scheme
  authority : r'.uri.authority = r.uri.authority
  legal : r'.uri.target.Legal

theorem queryParams_eq (r : Request) : r.queryParams = Form.decode (bytesOf (r.query.getD "")) := by
  rw [queryParams]
  cases r.query <;> rfl

theorem extends_of_headers (hr : r.uri.target.Legal) (headers : Headers) :
    r.Extends [] { r with headers } :=
  ⟨rfl, (List.append_nil _).symm, by simp [Request.path], rfl, rfl, hr⟩

theorem Extends.trans (h : r.Extends fields r') (h' : r'.Extends later r'') :
    r.Extends (fields ++ later) r'' where
  others := by
    rw [h'.others, h.others]
  params := by rw [h'.params, h.params, List.append_assoc]
  path := by
    rw [h'.path, h.path]
    by_cases hempty : r.path = "" <;> by_cases hfields : fields = [] <;> simp [hempty, hfields]
  scheme := h'.scheme.trans h.scheme
  authority := h'.authority.trans h.authority
  legal := h'.legal

/-- The request with a field appended to its query. -/
def withField (r : Request) (f : Form.Field) : Request :=
  { r with uri := { r.uri with target := ⟨r.path, some (Form.appendField r.query f)⟩ } }

theorem setQuery_appendField (hr : r.uri.target.Legal) (h : r.TakesQuery) (f : Form.Field) :
    r.setQuery (some (Form.appendField r.query f)) = .ok (r.withField f) :=
  setQuery_of_takesQuery hr h (Form.appendField_ne_empty _ _)
    (Form.isQueryChar_appendField f hr.query)

theorem extends_withField (hr : r.uri.target.Legal) (f : Form.Field) :
    r.Extends [f] (r.withField f) where
  others := rfl
  params := by
    rw [queryParams_eq r, ← Form.decode_appendField]
    rfl
  path := by
    by_cases hempty : r.path = ""
    · rw [if_pos ⟨hempty, List.cons_ne_nil _ _⟩, Request.path,
        Uri.path_of_empty (show (r.withField f).uri.target.path = "" from hempty)]
      simp [withField, Uri.hasTarget, Target.isEmpty]
    · rw [if_neg fun h => hempty h.1]
      exact Uri.path_of_ne_empty (u := (r.withField f).uri) hempty
  scheme := rfl
  authority := rfl
  legal := by
    refine ⟨fun c hc => Uri.isPathChar_path hr hc, ?_⟩
    rintro _ ⟨rfl⟩
    exact Form.isQueryChar_appendField f hr.query

/-- A condition on a parameter is met by a request to which it has been added with a value that the
condition allows. -/
theorem Extends.check_query (h : r.Extends fields r') {name value : String}
    (hmem : (name, value) ∈ fields) {pattern : Option Regex}
    (hpattern : ∀ p, pattern = some p → p.isMatch value = true) (ctx : MatchContext) :
    ((Predicate.query name pattern).check r' ctx).1 = true := by
  refine List.any_eq_true.mpr ⟨(name, value), ?_, ?_⟩
  · rw [h.params]
    exact List.mem_append_right _ hmem
  · cases pattern with
    | none => simp
    | some p => simp [hpattern p rfl]

end Request

variable {τ : Type}

/-- The scene with another request. -/
def Scene.withRequest (s : Scene τ) (r : Request) : Scene τ :=
  { s with exchange := { s.exchange with request := r } }

namespace RequestEdit

variable {x : Exchange} {f : Form.Field}

theorem apply_addParameter_of_takesQuery (hx : x.request.uri.target.Legal)
    (h : x.request.TakesQuery) :
    (addParameter f).apply x = (.ok (), { x with request := x.request.withField f }) := by
  rw [apply, Request.setQuery_appendField hx h]
  rfl

theorem exists_error_of_apply_addParameter (hx : x.request.uri.target.Legal)
    (h : ¬x.request.TakesQuery) : ∃ e, (addParameter f).apply x = (.error e, x) := by
  obtain ⟨e, herror⟩ :=
    Request.exists_error_of_setQuery hx h (Form.appendField_ne_empty x.request.query f)
  refine ⟨e, ?_⟩
  rw [apply, herror]
  rfl

/-- The field that an edit adds to the query. -/
def field? : RequestEdit → Option Form.Field
  | .addParameter f => some f
  | _ => none

/-- An edit that does not rewrite the path adds its field to the query and changes nothing but
headers besides, or it fails. -/
theorem extends_apply {e : RequestEdit} (he : e.isRewrite = false)
    (hx : x.request.uri.target.Legal) :
    (∃ r, x.request.Extends e.field?.toList r ∧ e.apply x = (.ok (), { x with request := r })) ∨
      ∃ err, e.apply x = (.error err, x) := by
  cases e with
  | addParameter f =>
      by_cases htakes : x.request.TakesQuery
      · exact .inl ⟨_, x.request.extends_withField hx f, apply_addParameter_of_takesQuery hx htakes⟩
      · exact .inr (exists_error_of_apply_addParameter hx htakes)
  | addHeader | removeHeader | removeHeaders | stripHopByHop =>
      exact .inl ⟨_, x.request.extends_of_headers hx _, rfl⟩
  | prefixPath | rewritePath | setPath => cases he

end RequestEdit

namespace Filter

/-- Whether the filter edits the query or the headers of the request, and does nothing else. -/
def keepsPath : Filter → Bool
  | .request edit => !edit.isRewrite
  | _ => false

/-- The field that a filter adds to the query. -/
def field? : Filter → Option Form.Field
  | .request edit => edit.field?
  | _ => none

end Filter

/-- The fields that filters add to the query, in their order. -/
def addedFields (filters : List OrderedFilter) : List Form.Field :=
  filters.filterMap fun f => f.filter.field?

theorem addedFields_cons (order : Int32) (edit : RequestEdit) (filters : List OrderedFilter) :
    addedFields (⟨order, .request edit⟩ :: filters) = edit.field?.toList ++ addedFields filters := by
  rw [addedFields, List.filterMap_cons, addedFields, Filter.field?]
  cases edit.field? <;> rfl

/-- Filters that keep the path add their fields one after the other, unless one fails. -/
theorem runChain_append_of_keepsPath [TokenArithmetic τ] {filters : List OrderedFilter}
    (hfilters : ∀ f ∈ filters, f.filter.keepsPath = true) {s : Scene τ}
    (hs : s.exchange.request.uri.target.Legal) :
    (∃ r, s.exchange.request.Extends (addedFields filters) r ∧
        ∀ rest, runChain (filters ++ rest) s = runChain rest (s.withRequest r)) ∨
      ∃ e r, ∀ rest, runChain (filters ++ rest) s = (.error e, s.withRequest r) := by
  induction filters generalizing s with
  | nil => exact .inl ⟨_, s.exchange.request.extends_of_headers hs _, fun rest => rfl⟩
  | cons f filters ih =>
      obtain ⟨hf, hrest⟩ := List.forall_mem_cons.mp hfilters
      rcases f with ⟨order, filter⟩
      cases filter with
      | request edit =>
          have hedit : edit.isRewrite = false := by simpa [Filter.keepsPath] using hf
          rcases RequestEdit.extends_apply hedit hs with ⟨r, hextends, happly⟩ | ⟨e, happly⟩
          · have hfirst (rest : List OrderedFilter) :
                runChain (⟨order, .request edit⟩ :: filters ++ rest) s =
                  runChain (filters ++ rest) (s.withRequest r) := by
              simp only [List.cons_append, runChain, Filter.run, RequestEdit.run, happly]
              rfl
            rcases ih hrest (s := s.withRequest r) hextends.legal with
              ⟨r', hextends', hrun⟩ | ⟨e, r', hrun⟩
            · refine .inl ⟨r', ?_, fun rest => (hfirst rest).trans (hrun rest)⟩
              rw [addedFields_cons]
              exact hextends.trans hextends'
            · exact .inr ⟨e, r', fun rest => (hfirst rest).trans (hrun rest)⟩
          · refine .inr ⟨e, s.exchange.request, fun rest => ?_⟩
            simp only [List.cons_append, runChain, Filter.run, RequestEdit.run, happly]
            rfl
      | _ => cases hf

/-- Added parameters. Every definition that names a parameter is accepted. A request that takes a query
is handed on with the parameter behind those that its query had before; the rest of it is as it was,
but for a path that is empty, which is a slash then. Any other request is given up. The target of the
request is legal, as it is in all that has been read as a URI, and it stays so. Filters in a row add
their parameters in the order of the chain, be there edits of headers between them or not. A condition
on a parameter that has been added is met if it allows the value. -/
theorem parameters_appended [TokenArithmetic τ] :
    (∀ bodyLimit name value, name ≠ "" →
      FilterSpec.build bodyLimit (.addRequestParameter name value) =
        .ok (.request (.addParameter (name, value)))) ∧
    (∀ (s : Scene τ) (f : Form.Field), s.exchange.request.uri.target.Legal →
      let r := s.exchange.request
      let filter := Filter.request (.addParameter f)
      (r.TakesQuery → ∃ r', filter.HandsOn s r' ∧ r.Extends [f] r' ∧ r'.headers = r.headers) ∧
        (¬r.TakesQuery → ∃ e, filter.GivesUp s e)) ∧
    (∀ (s : Scene τ) (filters : List OrderedFilter),
      (∀ f ∈ filters, f.filter.keepsPath = true) → s.exchange.request.uri.target.Legal →
      (∃ r', s.exchange.request.Extends (addedFields filters) r' ∧
          ∀ rest, runChain (filters ++ rest) s = runChain rest (s.withRequest r')) ∨
        ∃ e r', ∀ rest, runChain (filters ++ rest) s = (.error e, s.withRequest r')) ∧
    ∀ (r r' : Request) (fields : List Form.Field) (name value : String) (pattern : Option Regex),
      r.Extends fields r' → (name, value) ∈ fields →
      (∀ p, pattern = some p → p.isMatch value = true) →
      ∀ ctx, ((Predicate.query name pattern).check r' ctx).1 = true := by
  refine ⟨fun bodyLimit name value hname => if_neg hname, fun s f hs => ⟨?_, ?_⟩, ?_, ?_⟩
  · intro htakes
    exact ⟨_, Filter.handsOn_of_apply (RequestEdit.apply_addParameter_of_takesQuery hs htakes),
      Request.extends_withField hs f, rfl⟩
  · intro hno
    obtain ⟨e, happly⟩ := RequestEdit.exists_error_of_apply_addParameter hs hno
    exact ⟨e, Filter.givesUp_of_apply happly⟩
  · exact fun s filters hfilters hs => runChain_append_of_keepsPath hfilters hs
  · exact fun r r' fields name value pattern h hmem hpattern ctx => h.check_query hmem hpattern ctx

/-- A value with a blank and an ampersand comes through, behind the parameter that was there. -/
theorem parameters_appended_items :
    ∃ r', (Filter.request (.addParameter ("q", "a b&c"))).HandsOn
        (Filter.askingFor ⟨none, none, ⟨"/items", some "page=2"⟩⟩) r' ∧
      r'.path = "/items" ∧ r'.queryParams = [("page", "2"), ("q", "a b&c")] ∧
      ∀ ctx, ((Predicate.query "q" none).check r' ctx).1 = true := by
  let s := Filter.askingFor ⟨none, none, ⟨"/items", some "page=2"⟩⟩
  have hs : s.exchange.request.uri.target.Legal :=
    Uri.legal_of_parse (show Uri.parse "/items?page=2" = .ok s.exchange.request.uri by rfl)
  have htakes : s.exchange.request.TakesQuery := ⟨.inr (by cbv), rfl⟩
  have hparams : s.exchange.request.queryParams = [("page", "2")] := by cbv
  have hpath : s.exchange.request.path = "/items" := by cbv
  obtain ⟨-, hfilter, -, hquery⟩ := parameters_appended (τ := Rat)
  obtain ⟨r', hgoes, hextends, -⟩ := (hfilter s ("q", "a b&c") hs).1 htakes
  refine ⟨r', hgoes, ?_, ?_, fun ctx => ?_⟩
  · rw [hextends.path, hpath]
    rfl
  · rw [hextends.params, hparams]
    rfl
  · exact hquery _ _ _ "q" "a b&c" none hextends List.mem_cons_self (by simp) ctx

/-- A path that is rewritten to a hash is empty, and it becomes a slash when a parameter is added. -/
theorem bare_path_becomes_slash : ∃ (pattern : Regex) (bare r' : Request),
    Filter.ofDefinition 1024
        ⟨"RewritePath", [("regexp", .str "/x"), ("replacement", .str "#")], none⟩ =
      .ok (.request (.rewritePath pattern "#")) ∧
    (Filter.request (.rewritePath pattern "#")).HandsOn
        (Filter.askingFor ⟨none, none, ⟨"/x", none⟩⟩) bare ∧
    (∀ s : Scene Rat, s.exchange.request = bare →
      (Filter.request (.addParameter ("a", "b"))).HandsOn s r') ∧
    bare.path = "" ∧ r'.path = "/" ∧ r'.path ≠ bare.path := by
  let s := Filter.askingFor ⟨none, none, ⟨"/x", none⟩⟩
  let bare : Request := { uri := ⟨none, none, ⟨"", none⟩⟩ }
  let r' : Request := { uri := ⟨none, none, ⟨"", some "a=b"⟩⟩ }
  obtain ⟨pattern, hd, hreplace⟩ : ∃ pattern, Filter.ofDefinition 1024
        ⟨"RewritePath", [("regexp", .str "/x"), ("replacement", .str "#")], none⟩ =
      .ok (.request (.rewritePath pattern "#")) ∧ pattern.replaceAll "/x" "#" = "#" :=
    ⟨_, by cbv, by cbv⟩
  have hgoes : (Filter.request (.rewritePath pattern "#")).HandsOn s bare := by
    have hpath : s.exchange.request.path = "/x" := by cbv
    have hset : s.exchange.request.setPath "#" = .ok bare := by cbv
    have houtcome := Filter.outcome_of_rewrite (s := s)
      (show (RequestEdit.rewritePath pattern "#").apply s.exchange =
          RequestEdit.rewrite s.exchange "#" by
        simp [RequestEdit.apply, RequestEdit.substitute, hpath, hreplace])
    rw [hset] at houtcome
    exact houtcome
  refine ⟨pattern, bare, r', hd, hgoes, fun t ht => ?_, by cbv, by cbv, by decide⟩
  have hset : bare.setQuery (some (Form.appendField bare.query ("a", "b"))) = .ok r' := by cbv
  have happly : (RequestEdit.addParameter ("a", "b")).apply t.exchange =
      (.ok (), { t.exchange with request := r', originalUrls := t.exchange.originalUrls }) := by
    rw [RequestEdit.apply, ht, hset]
    rfl
  exact Filter.handsOn_of_apply happly

end HttpGateway
