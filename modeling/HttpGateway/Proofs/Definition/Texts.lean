import HttpGateway.Proofs.Definition.Serialisation
import HttpGateway.Proofs.Json.RoundTrip

/-!
# Definitions written to texts and read again

The text of a definition is read as the definition, up to the fractional numbers among its arguments,
if its arguments do not nest too deeply. Whatever has been read from a text, from whatever form, can
be written to a text that is read.
-/

namespace HttpGateway

variable {room : Nat}

namespace Json

mutual

theorem isFinite_of_hasText {j : Json} (h : j.HasText) : j.IsFinite := by
  cases j with
  | float x => exact h
  | arr items => exact itemsFinite_of_hasText h
  | obj fields => exact fieldsFinite_of_hasText h
  | _ => trivial

theorem itemsFinite_of_hasText {items : List Json} (h : ItemsHaveText items) :
    ItemsFinite items := by
  cases items with
  | nil => trivial
  | cons j rest => exact ⟨isFinite_of_hasText h.1, itemsFinite_of_hasText h.2⟩

theorem fieldsFinite_of_hasText {fields : List (String × Json)} (h : FieldsHaveText fields) :
    FieldsFinite fields := by
  cases fields with
  | nil => trivial
  | cons e rest => exact ⟨isFinite_of_hasText h.1, fieldsFinite_of_hasText h.2⟩

end

variable {α : Type} {write write' : α → Json} {as : List α}

theorem hasText_arr (h : ∀ a ∈ as, (write a).HasText) : (arr (as.map write)).HasText :=
  itemsHaveText_iff.mpr (List.forall_mem_map.mpr h)

theorem depth_arr_le (h : ∀ a ∈ as, (write a).depth ≤ room) :
    (arr (as.map write)).depth ≤ room + 1 :=
  Nat.succ_le_succ (itemsDepth_le_iff.mpr (List.forall_mem_map.mpr h))

theorem rereadItems_map {again : α → α} (h : ∀ a ∈ as, (write a).reread = write' (again a)) :
    rereadItems (as.map write) = (as.map again).map write' := by
  rw [rereadItems_eq_map, List.map_map, List.map_map]
  exact List.map_congr_left h

end Json

theorem map_eq_self_iff {α : Type} {f : α → α} {l : List α} : l.map f = l ↔ ∀ a ∈ l, f a = a := by
  simpa only [List.map_id, id_eq] using (List.map_inj_left (l := l) (f := f) (g := id))

/-- How things that are written to texts come back from them. Some can be written, some of these are
kept as they are by it. -/
structure ComesBack {α : Type} (read : Origin → Decoder α) (written : α → Json)
    (HasText IsKept : α → Prop) (reread : α → α) : Prop where
  /-- The text is read, unless it is too deep, and then not at all. -/
  parse? : ∀ origin a, HasText a → (Json.parse? (written a).render).map (read origin) =
    if (written a).depth ≤ Json.deepest then some (.ok (reread a)) else none
  /-- What has been read from a text can be written to one, which is read. -/
  again : ∀ first origin text j a, Json.parse? text = some j → read first j = .ok a →
    HasText a ∧ (Json.parse? (written a).render).map (read origin) = some (.ok (reread a))
  /-- What comes back is what was written just if that is kept. -/
  same_iff : ∀ a, HasText a → (reread a = a ↔ IsKept a)

/-- Things come back if they are read from what their value becomes, and are no deeper than what they
have been read from. -/
theorem ComesBack.of_fits {α : Type} {read : Origin → Decoder α} {written : α → Json}
    {HasText IsKept : α → Prop} {reread : α → α}
    (htext : ∀ a, HasText a → (written a).HasText)
    (hread : ∀ origin a, HasText a → read origin (written a).reread = .ok (reread a))
    (hfits : ∀ first j a, j.Fits Json.deepest → read first j = .ok a →
      HasText a ∧ (written a).depth ≤ Json.deepest)
    (hsame : ∀ a, HasText a → (reread a = a ↔ IsKept a)) :
    ComesBack read written HasText IsKept reread := by
  have hparse : ∀ origin a, HasText a → (Json.parse? (written a).render).map (read origin) =
      if (written a).depth ≤ Json.deepest then some (.ok (reread a)) else none := by
    intro origin a ha
    rw [Json.parse?_render (htext a ha)]
    split
    next => exact congrArg some (hread origin a ha)
    next => rfl
  refine ⟨hparse, fun first origin text j a hj ha => ?_, hsame⟩
  obtain ⟨htext, hdepth⟩ := hfits first j a (Json.fits_of_parse? hj) ha
  exact ⟨htext, (hparse origin a htext).trans (if_pos hdepth)⟩

/-- What is kept comes back as it was. -/
theorem ComesBack.parse?_of_isKept {α : Type} {read : Origin → Decoder α} {written : α → Json}
    {HasText IsKept : α → Prop} {reread : α → α}
    (h : ComesBack read written HasText IsKept reread) (origin : Origin) {a : α} (ha : HasText a)
    (hkept : IsKept a) (hdepth : (written a).depth ≤ Json.deepest) :
    (Json.parse? (written a).render).map (read origin) = some (.ok a) := by
  have hread := (h.parse? origin a ha).trans (if_pos hdepth)
  rwa [(h.same_iff a ha).mpr hkept] at hread

/-- The entries of a record that fits fit with it. -/
theorem RecordRule.fits_of_entries {r : RecordRule} {origin : Origin} {j : Json}
    {found : List (String × Json)} (hj : j.Fits (room + 1)) (h : r.entries origin j = .ok found) :
    ∀ e ∈ found, e.2.Fits room := by
  rcases RecordRule.mem_of_entries h with ⟨fields, rfl, hmem⟩ | ⟨items, rfl, hmem⟩
  · exact fun e he => (Json.fits_obj.mp hj).2 e (hmem e he)
  · exact fun e he => Json.fits_arr.mp hj e.2 (hmem e he)

/-- What holds of whatever an item that fits is read as holds of the members of a list that fits. -/
theorem Decoder.of_list_fits {α : Type} {item : Decoder α} {P : α → Prop} {j : Json} {as : List α}
    (hj : j.Fits (room + 1)) (h : list item j = .ok as)
    (hitem : ∀ i a, i.Fits room → item i = .ok a → P a) : ∀ a ∈ as, P a := by
  cases j with
  | arr items => exact of_list_mem h fun i hi a => hitem i a (Json.fits_arr.mp hj i hi)
  | _ => cases h

/-- The same of a field that holds a list, which may be left out. -/
theorem Field.of_take_list_fits {α : Type} {item : Decoder α} {P : α → Prop} {name : String}
    {found : List (String × Json)} {as : List α} (hfound : ∀ e ∈ found, e.2.Fits (room + 1))
    (h : Field.take ⟨name, Decoder.list item, some []⟩ found = .ok as)
    (hitem : ∀ i a, i.Fits room → item i = .ok a → P a) : ∀ a ∈ as, P a := by
  refine Field.of_take_mem (P := fun as => ∀ a ∈ as, P a) h (fun e he hread => ?_) ?_
  · exact Decoder.of_list_fits (hfound e he) hread hitem
  · rintro _ ⟨⟩
    exact List.forall_mem_nil _

namespace Definition

open Json (reread rereadFields)

variable {name : String} {args : Fields} {order : Option Int32}

/-- Texts hold the arguments. This is so of any arguments that hold numbers of 64 bits and finite
fractional numbers. -/
structure ArgsHaveText (args : Fields) : Prop where
  hasText : (Json.obj args).HasText
  isOrdered : (Json.obj args).IsOrdered

theorem ArgsHaveText.of_fits (h : (Json.obj args).Fits room) : ArgsHaveText args :=
  ⟨h.hasText, h.isOrdered⟩

theorem hasText_int32 (n : Int32) : (Json.int n.toInt).HasText := by
  have hrange : (-2147483648 : Int) ≤ n.toInt ∧ n.toInt ≤ 2147483647 :=
    ⟨n.minValue_le_toInt, n.toInt_le⟩
  have hword : (Json.largestWord : Int) = 18446744073709551615 := rfl
  exact ⟨by omega, by omega⟩

theorem rereadFields_argsEntry (h : Dictionary.Ordered args) :
    rereadFields (argsEntry args) = argsEntry (rereadFields args) := by
  cases args with
  | nil => rfl
  | cons e rest =>
      show [("args", reread (.obj (e :: rest)))] = [("args", .obj (rereadFields (e :: rest)))]
      rw [Json.reread_obj h]

theorem rereadFields_append (a b : List (String × Json)) :
    rereadFields (a ++ b) = rereadFields a ++ rereadFields b := by
  simp only [Json.rereadFields_eq_map, List.map_append]

/-- The arguments of a shortcut are texts, which are always kept. -/
theorem of_parse {text : String} (h : Shortcut.parse text = .ok (name, args)) :
    (Json.obj args).Fits (room + 1) ∧ (Json.obj args).IsKept := by
  obtain ⟨hordered, htexts⟩ := Shortcut.texts_of_parse h
  refine ⟨Json.fits_obj.mpr ⟨hordered, fun e he => ?_⟩, Json.fieldsKept_iff.mpr fun e he => ?_⟩
  · obtain ⟨s, hs⟩ := htexts e he
    exact hs ▸ ⟨trivial, trivial, Nat.zero_le room⟩
  · obtain ⟨s, hs⟩ := htexts e he
    exact hs ▸ trivial

/-- The arguments of whatever has been read from a value that fits are one level further down. -/
theorem fits_of_readTable {j : Json} (hj : j.Fits (room + 2))
    (h : readTable j = .ok (name, args, order)) : (Json.obj args).Fits (room + 1) := by
  cases j with
  | str text =>
      simp only [readTable] at h
      split at h
      next hparse =>
        cases h
        exact (of_parse hparse).1
      next => cases h
  | obj fields =>
      simp only [readTable] at h
      split at h
      next htable =>
        cases h
        obtain ⟨entries, hentries, htable⟩ := bind_eq_ok_iff.mp htable
        obtain ⟨_, -, htable⟩ := bind_eq_ok_iff.mp htable
        obtain ⟨found, hargs, htable⟩ := bind_eq_ok_iff.mp htable
        obtain ⟨_, -, htable⟩ := bind_eq_ok_iff.mp htable
        cases htable
        have hfits := RecordRule.fits_of_entries hj hentries
        refine Field.of_take_mem (P := fun args => (Json.obj args).Fits (room + 1)) hargs
          (fun e he hread => ?_) ?_
        · have hvalue := hfits e he
          generalize e.2 = value at hread hvalue
          cases value with
          | obj given =>
              have hsame := arguments_obj (Json.fieldsFinite_of_hasText hvalue.hasText)
              cases hsame.symm.trans hread
              exact hvalue
          | _ => cases hread
        · rintro _ ⟨⟩
          exact Json.fits_obj.mpr ⟨.nil, List.forall_mem_nil _⟩
      next => cases h
  | _ => cases h

end Definition

namespace FilterDefinition

variable {d : FilterDefinition}

/-- Texts hold the arguments. -/
def HasText (d : FilterDefinition) : Prop := Definition.ArgsHaveText d.args

/-- What the text of a filter is read as. -/
def reread (d : FilterDefinition) : FilterDefinition :=
  { d with args := Json.rereadFields d.args }

theorem isWritable_reread (h : d.HasText) : d.reread.IsWritable :=
  Json.fieldsFinite_of_hasText (Json.fieldsHaveText_reread h.hasText)

theorem assemble_eq (object : List (String × Json) → Json) (d : FilterDefinition) :
    d.assemble object = object (("name", .str d.name) :: argsEntry d.args ++
      (d.order.map fun n => ("order", Json.int n.toInt)).toList) := by
  obtain ⟨name, args, order⟩ := d
  cases order <;> rfl

/-- The fields of a filter are its name, its arguments and its order, as far as it has them. -/
theorem forall_fields {P : Json → Prop} (hname : P (.str d.name)) (hargs : P (.obj d.args))
    (horder : ∀ n : Int32, P (.int n.toInt)) :
    ∀ e ∈ ("name", .str d.name) :: argsEntry d.args ++
      (d.order.map fun n => ("order", Json.int n.toInt)).toList, P e.2 := by
  obtain ⟨name, args, order⟩ := d
  cases args <;> cases order <;> simp_all [argsEntry]

theorem hasText_written (h : d.HasText) : d.written.HasText := by
  rw [written, assemble_eq]
  exact Json.fieldsHaveText_iff.mpr (forall_fields trivial h.hasText Definition.hasText_int32)

theorem depth_written_le (h : (Json.obj d.args).depth ≤ room) :
    d.written.depth ≤ room + 1 := by
  rw [written, assemble_eq]
  exact Nat.succ_le_succ (Json.fieldsDepth_le_iff.mpr (forall_fields (P := fun j => j.depth ≤ room)
    (Nat.zero_le room) h fun _ => Nat.zero_le room))

theorem reread_written (h : d.HasText) : d.written.reread = d.reread.toJson := by
  have hargs := Definition.rereadFields_argsEntry h.isOrdered.1
  obtain ⟨name, args, order⟩ := d
  rw [toJson, written, assemble_eq, assemble_eq, Json.reread, List.cons_append, List.cons_append,
    Json.rereadFields, Definition.rereadFields_append, hargs]
  cases order <;> rfl

/-- A filter is read from its text as it was, up to the fractional numbers. -/
theorem ofJson_reread (h : d.HasText) : ofJson d.written.reread = .ok d.reread :=
  reread_written h ▸ ofJson_toJson (isWritable_reread h)

/-- The arguments of a filter are one level further down in what it has been read from. -/
theorem fits_of_ofJson {j : Json} (hj : j.Fits (room + 2)) (h : ofJson j = .ok d) :
    (Json.obj d.args).Fits (room + 1) := by
  obtain ⟨⟨name, args, order⟩, hread, rfl⟩ := map_eq_ok_iff.mp h
  exact Definition.fits_of_readTable hj hread

/-- A filter is read as it was just if each fractional number among its arguments is. -/
theorem reread_eq_self_iff (h : d.HasText) : d.reread = d ↔ (Json.obj d.args).IsKept := by
  obtain ⟨name, args, order⟩ := d
  simp only [reread, FilterDefinition.mk.injEq, true_and, and_true]
  exact Json.rereadFields_eq_self_iff h.isOrdered.2

theorem comesBack : ComesBack (fun _ => ofJson) written HasText (fun d => (Json.obj d.args).IsKept)
    reread := by
  refine .of_fits (fun _ => hasText_written) (fun _ _ => ofJson_reread) (fun _ j d hj h => ?_)
    fun _ => reread_eq_self_iff
  have hargs : (Json.obj d.args).Fits (125 + 1) := fits_of_ofJson hj h
  exact ⟨.of_fits hargs, depth_written_le hargs.depth_le⟩

/-- What a shortcut makes comes back as it was. -/
theorem parse?_of_parse {text : String} (h : parse text = .ok d) :
    (Json.parse? d.written.render).map ofJson = some (.ok d) := by
  obtain ⟨⟨name, args⟩, hparse, rfl⟩ := map_eq_ok_iff.mp h
  obtain ⟨hfits, hkept⟩ : (Json.obj args).Fits (125 + 1) ∧ (Json.obj args).IsKept :=
    Definition.of_parse hparse
  exact comesBack.parse?_of_isKept .direct (.of_fits hfits) hkept (depth_written_le hfits.depth_le)

end FilterDefinition

namespace PredicateDefinition

variable {d : PredicateDefinition}

/-- Texts hold the arguments. -/
def HasText (d : PredicateDefinition) : Prop := Definition.ArgsHaveText d.args

/-- What the text of a predicate is read as. -/
def reread (d : PredicateDefinition) : PredicateDefinition :=
  { d with args := Json.rereadFields d.args }

theorem isWritable_reread (h : d.HasText) : d.reread.IsWritable :=
  Json.fieldsFinite_of_hasText (Json.fieldsHaveText_reread h.hasText)

/-- The object of a predicate is that of a filter without an order. -/
theorem assemble_eq (object : List (String × Json) → Json) (d : PredicateDefinition) :
    d.assemble object =
      FilterDefinition.assemble object { name := d.name, args := d.args, order := none } :=
  congrArg object (List.append_nil _).symm

theorem hasText_written (h : d.HasText) : d.written.HasText :=
  show (d.assemble .obj).HasText from assemble_eq .obj d ▸ FilterDefinition.hasText_written h

theorem depth_written_le (h : (Json.obj d.args).depth ≤ room) :
    d.written.depth ≤ room + 1 :=
  show (d.assemble .obj).depth ≤ room + 1 from
    assemble_eq .obj d ▸ FilterDefinition.depth_written_le h

theorem reread_written (h : d.HasText) : d.written.reread = d.reread.toJson := by
  rw [toJson, written, assemble_eq, assemble_eq]
  exact FilterDefinition.reread_written h

/-- A predicate is read from its text as it was, up to the fractional numbers. -/
theorem ofJson_reread (h : d.HasText) : ofJson d.written.reread = .ok d.reread :=
  reread_written h ▸ ofJson_toJson (isWritable_reread h)

/-- The arguments of a predicate are one level further down in what it has been read from. -/
theorem fits_of_ofJson {j : Json} (hj : j.Fits (room + 2)) (h : ofJson j = .ok d) :
    (Json.obj d.args).Fits (room + 1) := by
  obtain ⟨⟨name, args, order⟩, hread, rfl⟩ := map_eq_ok_iff.mp h
  exact Definition.fits_of_readTable hj hread

/-- A predicate is read as it was just if each fractional number among its arguments is. -/
theorem reread_eq_self_iff (h : d.HasText) : d.reread = d ↔ (Json.obj d.args).IsKept := by
  obtain ⟨name, args⟩ := d
  simp only [reread, PredicateDefinition.mk.injEq, true_and]
  exact Json.rereadFields_eq_self_iff h.isOrdered.2

theorem comesBack : ComesBack (fun _ => ofJson) written HasText (fun d => (Json.obj d.args).IsKept)
    reread := by
  refine .of_fits (fun _ => hasText_written) (fun _ _ => ofJson_reread) (fun _ j d hj h => ?_)
    fun _ => reread_eq_self_iff
  have hargs : (Json.obj d.args).Fits (125 + 1) := fits_of_ofJson hj h
  exact ⟨.of_fits hargs, depth_written_le hargs.depth_le⟩

/-- What a shortcut makes comes back as it was. -/
theorem parse?_of_parse {text : String} (h : parse text = .ok d) :
    (Json.parse? d.written.render).map ofJson = some (.ok d) := by
  obtain ⟨⟨name, args⟩, hparse, rfl⟩ := map_eq_ok_iff.mp h
  obtain ⟨hfits, hkept⟩ : (Json.obj args).Fits (125 + 1) ∧ (Json.obj args).IsKept :=
    Definition.of_parse hparse
  exact comesBack.parse?_of_isKept .direct (.of_fits hfits) hkept (depth_written_le hfits.depth_le)

end PredicateDefinition

namespace RouteDefinition

variable {d : RouteDefinition}

/-- Texts hold the arguments of the predicates and filters. -/
structure HasText (d : RouteDefinition) : Prop where
  predicates : ∀ p ∈ d.predicates, p.HasText
  filters : ∀ f ∈ d.filters, f.HasText

/-- Texts hold the arguments of the predicates and filters, with at most so many arrays and objects in
one another. -/
structure ArgsFit (room : Nat) (d : RouteDefinition) : Prop where
  predicates : ∀ p ∈ d.predicates, (Json.obj p.args).Fits room
  filters : ∀ f ∈ d.filters, (Json.obj f.args).Fits room

/-- Every fractional number among the arguments is the number that its own text is read as. -/
structure IsKept (d : RouteDefinition) : Prop where
  predicates : ∀ p ∈ d.predicates, (Json.obj p.args).IsKept
  filters : ∀ f ∈ d.filters, (Json.obj f.args).IsKept

/-- What the text of a route is read as. -/
def reread (d : RouteDefinition) : RouteDefinition :=
  { d with
    predicates := d.predicates.map PredicateDefinition.reread
    filters := d.filters.map FilterDefinition.reread }

theorem ArgsFit.toHasText (h : d.ArgsFit room) : d.HasText :=
  ⟨fun p hp => .of_fits (h.predicates p hp), fun f hf => .of_fits (h.filters f hf)⟩

theorem isWritable_reread (h : d.HasText) : d.reread.IsWritable :=
  ⟨List.forall_mem_map.mpr fun p hp => PredicateDefinition.isWritable_reread (h.predicates p hp),
    List.forall_mem_map.mpr fun f hf => FilterDefinition.isWritable_reread (h.filters f hf)⟩

theorem hasText_written (h : d.HasText) : d.written.HasText := by
  refine ⟨trivial, Json.hasText_arr fun p hp => ?_, Json.hasText_arr fun f hf => ?_, trivial,
    Definition.hasText_int32 d.order, trivial⟩
  · exact PredicateDefinition.hasText_written (h.predicates p hp)
  · exact FilterDefinition.hasText_written (h.filters f hf)

theorem depth_written_le (h : d.ArgsFit room) : d.written.depth ≤ room + 3 := by
  refine Nat.succ_le_succ (Json.fieldsDepth_le_iff.mpr ?_)
  simp only [List.forall_mem_cons]
  refine ⟨Nat.zero_le _, Json.depth_arr_le fun p hp => ?_, Json.depth_arr_le fun f hf => ?_,
    Nat.zero_le _, Nat.zero_le _, List.forall_mem_nil _⟩
  · exact PredicateDefinition.depth_written_le (h.predicates p hp).depth_le
  · exact FilterDefinition.depth_written_le (h.filters f hf).depth_le

theorem reread_written (h : d.HasText) : d.written.reread = d.reread.toJson := by
  have hpredicates :
      Json.rereadItems (d.predicates.map (PredicateDefinition.assemble .obj)) =
        (d.predicates.map PredicateDefinition.reread).map PredicateDefinition.toJson :=
    Json.rereadItems_map fun p hp => PredicateDefinition.reread_written (h.predicates p hp)
  have hfilters :
      Json.rereadItems (d.filters.map (FilterDefinition.assemble .obj)) =
        (d.filters.map FilterDefinition.reread).map FilterDefinition.toJson :=
    Json.rereadItems_map fun f hf => FilterDefinition.reread_written (h.filters f hf)
  simp only [written, assemble, Json.reread, Json.rereadFields, hpredicates, hfilters]
  rfl

/-- A route is read from its text as it was, up to the fractional numbers. -/
theorem ofJson_reread (origin : Origin) (h : d.HasText) :
    ofJson origin d.written.reread = .ok d.reread :=
  reread_written h ▸ ofJson_toJson origin (isWritable_reread h)

/-- The arguments of a route are three levels further down in what it has been read from. -/
theorem argsFit_of_ofJson {origin : Origin} {j : Json} (hj : j.Fits (room + 4))
    (h : ofJson origin j = .ok d) : d.ArgsFit (room + 1) := by
  obtain ⟨entries, hentries, h⟩ := bind_eq_ok_iff.mp h
  obtain ⟨id, -, h⟩ := bind_eq_ok_iff.mp h
  obtain ⟨predicates, hpredicates, h⟩ := bind_eq_ok_iff.mp h
  obtain ⟨filters, hfilters, h⟩ := bind_eq_ok_iff.mp h
  obtain ⟨uri, -, h⟩ := bind_eq_ok_iff.mp h
  obtain ⟨order, -, h⟩ := bind_eq_ok_iff.mp h
  cases h
  have hfits := RecordRule.fits_of_entries hj hentries
  exact ⟨Field.of_take_list_fits hfits hpredicates fun _ _ => PredicateDefinition.fits_of_ofJson,
    Field.of_take_list_fits hfits hfilters fun _ _ => FilterDefinition.fits_of_ofJson⟩

/-- A route is read as it was just if each fractional number among its arguments is. -/
theorem reread_eq_self_iff (h : d.HasText) : d.reread = d ↔ d.IsKept := by
  have hpredicates : d.predicates.map PredicateDefinition.reread = d.predicates ↔
      ∀ p ∈ d.predicates, (Json.obj p.args).IsKept := by
    rw [← forall₂_congr fun p hp => PredicateDefinition.reread_eq_self_iff (h.predicates p hp)]
    exact map_eq_self_iff
  have hfilters : d.filters.map FilterDefinition.reread = d.filters ↔
      ∀ f ∈ d.filters, (Json.obj f.args).IsKept := by
    rw [← forall₂_congr fun f hf => FilterDefinition.reread_eq_self_iff (h.filters f hf)]
    exact map_eq_self_iff
  obtain ⟨id, predicates, filters, uri, order⟩ := d
  simp only [reread, RouteDefinition.mk.injEq, true_and, and_true, hpredicates, hfilters]
  exact ⟨fun ⟨hp, hf⟩ => ⟨hp, hf⟩, fun hkept => ⟨hkept.predicates, hkept.filters⟩⟩

theorem comesBack : ComesBack ofJson written HasText IsKept reread := by
  refine .of_fits (fun _ => hasText_written) (fun origin _ => ofJson_reread origin)
    (fun _ j d hj h => ?_) fun _ => reread_eq_self_iff
  have hargs : d.ArgsFit (123 + 1) := argsFit_of_ofJson hj h
  exact ⟨hargs.toHasText, depth_written_le hargs⟩

end RouteDefinition

end HttpGateway
