import HttpGateway.Definition.Json
import HttpGateway.Proofs.Json.Records

/-!
# Definitions written and read again

What a definition is written to reads as the same definition. The arguments are structured values,
which hold finite numbers only; this is all that writing asks of a definition, and every definition
that has been read, from whatever form, has it.
-/

namespace HttpGateway

namespace Json

mutual

/-- Every number in the value is finite. -/
def IsFinite : Json → Prop
  | .float x => x.isFinite = true
  | .arr items => ItemsFinite items
  | .obj fields => FieldsFinite fields
  | _ => True

/-- Every number in the items of an array is finite. -/
def ItemsFinite : List Json → Prop
  | [] => True
  | j :: rest => j.IsFinite ∧ ItemsFinite rest

/-- Every number in the fields of an object is finite. -/
def FieldsFinite : List (String × Json) → Prop
  | [] => True
  | (_, j) :: rest => j.IsFinite ∧ FieldsFinite rest

end

mutual

theorem isFinite_finite (j : Json) : j.finite.IsFinite := by
  cases j with
  | float x =>
      simp only [finite]
      split
      next hx => exact hx
      next => trivial
  | arr items => exact itemsFinite_finiteItems items
  | obj fields => exact fieldsFinite_finiteFields fields
  | _ => trivial

theorem itemsFinite_finiteItems (items : List Json) : ItemsFinite (finiteItems items) := by
  cases items with
  | nil => trivial
  | cons j rest => exact ⟨isFinite_finite j, itemsFinite_finiteItems rest⟩

theorem fieldsFinite_finiteFields (fields : List (String × Json)) :
    FieldsFinite (finiteFields fields) := by
  cases fields with
  | nil => trivial
  | cons e rest => exact ⟨isFinite_finite e.2, fieldsFinite_finiteFields rest⟩

end

mutual

theorem finite_eq_self {j : Json} (h : j.IsFinite) : j.finite = j := by
  cases j with
  | float x => exact if_pos h
  | arr items => exact congrArg Json.arr (finiteItems_eq_self h)
  | obj fields => exact congrArg Json.obj (finiteFields_eq_self h)
  | _ => rfl

theorem finiteItems_eq_self {items : List Json} (h : ItemsFinite items) :
    finiteItems items = items := by
  cases items with
  | nil => rfl
  | cons j rest => rw [finiteItems, finite_eq_self h.1, finiteItems_eq_self h.2]

theorem finiteFields_eq_self {fields : List (String × Json)} (h : FieldsFinite fields) :
    finiteFields fields = fields := by
  cases fields with
  | nil => rfl
  | cons e rest => rw [finiteFields, finite_eq_self h.1, finiteFields_eq_self h.2]

end

theorem fieldsFinite_of_forall {fields : List (String × Json)}
    (h : ∀ e ∈ fields, e.2.IsFinite) : FieldsFinite fields := by
  induction fields with
  | nil => trivial
  | cons e rest ih => exact ⟨h e List.mem_cons_self, ih fun f hf => h f (List.mem_cons_of_mem e hf)⟩

end Json

namespace Shortcut

theorem mem_numbered {index : Nat} {values : List String} {e : String × Json}
    (h : e ∈ numbered index values) : ∃ s, e.2 = .str s := by
  induction values generalizing index with
  | nil => cases h
  | cons v rest ih =>
      rcases List.mem_cons.mp h with rfl | h
      · exact ⟨trimText v, rfl⟩
      · exact ih h

/-- The arguments of a shortcut are texts, in the order of their keys. -/
theorem texts_of_parse {text name : String} {args : Fields} (h : parse text = .ok (name, args)) :
    Dictionary.Ordered args ∧ ∀ e ∈ args, ∃ s, e.2 = .str s := by
  unfold parse at h
  generalize split text = parts at h
  obtain ⟨before, rest⟩ := parts
  dsimp only at h
  split at h
  · cases h
  · cases rest with
    | none =>
        cases h
        exact ⟨.nil, fun _ he => nomatch he⟩
    | some values =>
        cases h
        exact ⟨Dictionary.ordered_ofList _, fun e he =>
          mem_numbered (Dictionary.mem_of_mem_ofList he)⟩

theorem fieldsFinite_of_parse {text name : String} {args : Fields}
    (h : parse text = .ok (name, args)) : Json.FieldsFinite args := by
  refine Json.fieldsFinite_of_forall fun e he => ?_
  obtain ⟨s, hs⟩ := (texts_of_parse h).2 e he
  rw [hs]
  trivial

end Shortcut

namespace Definition

theorem arguments_obj {args : Fields} (h : Json.FieldsFinite args) :
    arguments (.obj args) = .ok args :=
  congrArg Except.ok (Json.finiteFields_eq_self h)

theorem fieldsFinite_of_arguments {j : Json} {args : Fields} (h : arguments j = .ok args) :
    Json.FieldsFinite args := by
  cases j with
  | obj fields =>
      cases h
      exact Json.fieldsFinite_finiteFields fields
  | _ => cases h

theorem order_int (n : Int32) : order (.int n.toInt) = .ok n := by
  have hrange : (-2147483648 : Int) ≤ n.toInt ∧ n.toInt ≤ 2147483647 :=
    ⟨n.minValue_le_toInt, n.toInt_le⟩
  simp only [order, Decoder.int32, Decoder.integer, if_pos hrange, Except.map, Int32.ofInt_toInt]

/-- A table is read if it holds nothing but a name, arguments and an order, and the name at least.
Arguments left out are none. -/
theorem readTable_object {entries : List (String × Json)} {name : String} {args : Fields}
    {order : Option Int32} (hfinite : Json.FieldsFinite args)
    (hentries : ∀ e ∈ entries, e = ("name", .str name) ∨ e = ("args", .obj args) ∨
      ∃ n : Int32, order = some n ∧ e = ("order", .int n.toInt))
    (hname : entries.reverse.lookup "name" = some (.str name))
    (hargs : entries.reverse.lookup "args" = some (.obj args) ∨
      entries.reverse.lookup "args" = none ∧ args = [])
    (horder : entries.reverse.lookup "order" = order.map fun n => .int n.toInt) :
    readTable (.object entries) = .ok (name, args, order) := by
  have hnameRead : nameField.read (.str name) = .ok name := rfl
  have hargsRead : argsField.read (.obj args) = .ok args := arguments_obj hfinite
  have horderRead (n : Int32) : orderField.read (.int n.toInt) = .ok (some n) :=
    map_eq_ok_iff.mpr ⟨n, order_int n, rfl⟩
  have hfound : tableRule.entries .held (.object entries) = .ok (Dictionary.ofList entries) := by
    refine RecordRule.entries_object .held (fun e he => ?_) fun f hf hrequired => ?_
    · rcases hentries e he with rfl | rfl | ⟨n, -, rfl⟩
      · exact ⟨_, rfl, Field.check_rule hnameRead⟩
      · exact ⟨_, rfl, Field.check_rule hargsRead⟩
      · exact ⟨_, rfl, Field.check_rule (horderRead n)⟩
    · rcases List.mem_cons.mp hf with rfl | hf
      · obtain ⟨before, after, hsplit, -⟩ := List.lookup_eq_some_iff.mp hname
        refine List.mem_map.mpr ⟨("name", .str name), List.mem_reverse.mp ?_, rfl⟩
        simp [hsplit]
      · simp only [List.mem_cons, List.not_mem_nil, or_false] at hf
        rcases hf with rfl | rfl <;> cases hrequired
  have htakeArgs : argsField.take (Dictionary.ofList entries) = .ok args := by
    rcases hargs with hargs | ⟨hargs, rfl⟩
    · exact Field.take_ofList hargs hargsRead
    · exact Field.take_ofList_of_absent hargs rfl
  have htakeOrder : orderField.take (Dictionary.ofList entries) = .ok order := by
    cases order with
    | none => exact Field.take_ofList_of_absent horder rfl
    | some n => exact Field.take_ofList horder (horderRead n)
  have htable : (do
      let entries ← tableRule.entries .held (.object entries)
      .ok (← nameField.take entries, ← argsField.take entries, ← orderField.take entries)) =
      (.ok (name, args, order) : Except DecodeError _) :=
    bind_eq_ok_iff.mpr ⟨_, hfound, bind_eq_ok_iff.mpr ⟨_, Field.take_ofList hname hnameRead,
      bind_eq_ok_iff.mpr ⟨_, htakeArgs, bind_eq_ok_iff.mpr ⟨_, htakeOrder, rfl⟩⟩⟩⟩
  rw [Json.object] at htable ⊢
  simp only [readTable, htable]

/-- The arguments of whatever has been read are finite. -/
theorem fieldsFinite_of_readTable {j : Json} {name : String} {args : Fields}
    {order : Option Int32} (h : readTable j = .ok (name, args, order)) :
    Json.FieldsFinite args := by
  cases j with
  | str text =>
      simp only [readTable] at h
      split at h
      next hparse =>
        cases h
        exact Shortcut.fieldsFinite_of_parse hparse
      next => cases h
  | obj fields =>
      simp only [readTable] at h
      split at h
      next htable =>
        cases h
        obtain ⟨entries, -, htable⟩ := bind_eq_ok_iff.mp htable
        obtain ⟨_, -, htable⟩ := bind_eq_ok_iff.mp htable
        obtain ⟨found, hargs, htable⟩ := bind_eq_ok_iff.mp htable
        obtain ⟨_, -, htable⟩ := bind_eq_ok_iff.mp htable
        cases htable
        refine Field.of_take hargs (fun _ _ => fieldsFinite_of_arguments) ?_
        rintro _ ⟨⟩
        trivial
      next => cases h
  | _ => cases h

end Definition

namespace PredicateDefinition

/-- A structured value can hold the arguments. -/
def IsWritable (d : PredicateDefinition) : Prop := Json.FieldsFinite d.args

theorem ofJson_toJson {d : PredicateDefinition} (h : d.IsWritable) :
    ofJson d.toJson = .ok d := by
  obtain ⟨name, args⟩ := d
  refine map_eq_ok_iff.mpr ⟨(name, args, none), Definition.readTable_object h ?_ ?_ ?_ ?_, rfl⟩
  all_goals cases args
  all_goals simp [argsEntry, List.lookup_cons]

theorem isWritable_of_ofJson {j : Json} {d : PredicateDefinition} (h : ofJson j = .ok d) :
    d.IsWritable := by
  obtain ⟨⟨name, args, order⟩, hread, rfl⟩ := map_eq_ok_iff.mp h
  exact Definition.fieldsFinite_of_readTable hread

theorem ofJson_str {text : String} {d : PredicateDefinition} (h : parse text = .ok d) :
    ofJson (.str text) = .ok d := by
  obtain ⟨⟨name, args⟩, hparse, rfl⟩ := map_eq_ok_iff.mp h
  refine map_eq_ok_iff.mpr ⟨(name, args, none), ?_, rfl⟩
  simp only [Definition.readTable, hparse]

end PredicateDefinition

namespace FilterDefinition

/-- A structured value can hold the arguments. -/
def IsWritable (d : FilterDefinition) : Prop := Json.FieldsFinite d.args

theorem ofJson_toJson {d : FilterDefinition} (h : d.IsWritable) : ofJson d.toJson = .ok d := by
  obtain ⟨name, args, order⟩ := d
  refine map_eq_ok_iff.mpr ⟨(name, args, order), Definition.readTable_object h ?_ ?_ ?_ ?_, rfl⟩
  all_goals cases args <;> cases order
  all_goals simp [argsEntry, List.lookup_cons]

theorem isWritable_of_ofJson {j : Json} {d : FilterDefinition} (h : ofJson j = .ok d) :
    d.IsWritable := by
  obtain ⟨⟨name, args, order⟩, hread, rfl⟩ := map_eq_ok_iff.mp h
  exact Definition.fieldsFinite_of_readTable hread

theorem ofJson_str {text : String} {d : FilterDefinition} (h : parse text = .ok d) :
    ofJson (.str text) = .ok d := by
  obtain ⟨⟨name, args⟩, hparse, rfl⟩ := map_eq_ok_iff.mp h
  refine map_eq_ok_iff.mpr ⟨(name, args, none), ?_, rfl⟩
  simp only [Definition.readTable, hparse]

end FilterDefinition

namespace RouteDefinition

/-- Structured values can hold the arguments of the predicates and filters. -/
structure IsWritable (d : RouteDefinition) : Prop where
  predicates : ∀ p ∈ d.predicates, p.IsWritable
  filters : ∀ f ∈ d.filters, f.IsWritable

theorem ofJson_toJson (origin : Origin) {d : RouteDefinition} (h : d.IsWritable) :
    ofJson origin d.toJson = .ok d := by
  have hid : idField.read (.str d.id) = .ok d.id := rfl
  have hpredicates : predicatesField.read (.arr (d.predicates.map PredicateDefinition.toJson)) =
      .ok d.predicates :=
    Decoder.list_map fun p hp => PredicateDefinition.ofJson_toJson (h.predicates p hp)
  have hfilters : filtersField.read (.arr (d.filters.map FilterDefinition.toJson)) =
      .ok d.filters :=
    Decoder.list_map fun f hf => FilterDefinition.ofJson_toJson (h.filters f hf)
  have huri : uriField.read (.str d.uri) = .ok d.uri := rfl
  have horder : orderField.read (.int d.order.toInt) = .ok d.order := Definition.order_int d.order
  refine bind_eq_ok_iff.mpr ⟨_, RecordRule.entries_full_object origin rfl ?_, ?_⟩
  · simp only [List.forall_mem_cons]
    exact ⟨⟨_, rfl, Field.check_rule hid⟩, ⟨_, rfl, Field.check_rule hpredicates⟩,
      ⟨_, rfl, Field.check_rule hfilters⟩, ⟨_, rfl, Field.check_rule huri⟩,
      ⟨_, rfl, Field.check_rule horder⟩, fun _ hnil => nomatch hnil⟩
  · exact bind_eq_ok_iff.mpr ⟨_, Field.take_ofList rfl hid,
      bind_eq_ok_iff.mpr ⟨_, Field.take_ofList rfl hpredicates,
        bind_eq_ok_iff.mpr ⟨_, Field.take_ofList rfl hfilters,
          bind_eq_ok_iff.mpr ⟨_, Field.take_ofList rfl huri,
            bind_eq_ok_iff.mpr ⟨_, Field.take_ofList rfl horder, rfl⟩⟩⟩⟩⟩

theorem isWritable_of_ofJson {origin : Origin} {j : Json} {d : RouteDefinition}
    (h : ofJson origin j = .ok d) : d.IsWritable := by
  obtain ⟨entries, -, h⟩ := bind_eq_ok_iff.mp h
  obtain ⟨id, -, h⟩ := bind_eq_ok_iff.mp h
  obtain ⟨predicates, hpredicates, h⟩ := bind_eq_ok_iff.mp h
  obtain ⟨filters, hfilters, h⟩ := bind_eq_ok_iff.mp h
  obtain ⟨uri, -, h⟩ := bind_eq_ok_iff.mp h
  obtain ⟨order, -, h⟩ := bind_eq_ok_iff.mp h
  cases h
  constructor
  · refine Field.of_take (P := fun ps => ∀ p ∈ ps, p.IsWritable) hpredicates (fun j ps hps => ?_) ?_
    · exact Decoder.of_list hps fun _ _ => PredicateDefinition.isWritable_of_ofJson
    · rintro _ ⟨⟩
      exact fun p hp => nomatch hp
  · refine Field.of_take (P := fun fs => ∀ f ∈ fs, f.IsWritable) hfilters (fun j fs hfs => ?_) ?_
    · exact Decoder.of_list hfs fun _ _ => FilterDefinition.isWritable_of_ofJson
    · rintro _ ⟨⟩
      exact fun f hf => nomatch hf

end RouteDefinition

end HttpGateway
