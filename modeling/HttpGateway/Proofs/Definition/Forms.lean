import HttpGateway.Proofs.Definition.Arguments
import HttpGateway.Proofs.Definition.Serialisation
import HttpGateway.Proofs.Definition.Shortcut
import Mathlib

/-!
# Two forms of a definition

A predicate or filter may be written as a shortcut or as a table. Both forms come to the same
arguments, the shortcut's through numbered keys and back, and are decoded alike. Only a status can
be given by a text that no number stands for.
-/

namespace HttpGateway

open Arguments
open Dictionary (Together)

namespace ArgumentLayout

/-- How a table may hold the value of a shortcut: as a text without blanks around it or, where the
argument is a number, as the number that it is the text of. -/
inductive Holds (key v : String) : Json → Prop
  | text : Holds key v (.str (trimText v))
  | number {j : Json} (hkey : (numberRange? key).isSome) (hfinite : j.IsFinite)
      (htext : j.numberText? = some (trimText v)) : Holds key v j

/-- The table gives the values of a shortcut: each under the name of its place, or all as a list. -/
def Tabulates (values : List String) (table : List (String × Json)) : ArgumentLayout → Prop
  | .fields names =>
    values.length ≤ names.length ∧ List.Forall₂ (Together Holds) (names.zip values) table
  | .list name => table = [(name, .arr (texts values))]

/-- The table that holds all values of a shortcut as texts. -/
def textTable (values : List String) : ArgumentLayout → List (String × Json)
  | .fields names => names.zip (texts values)
  | .list name => [(name, .arr (texts values))]

variable {layout : ArgumentLayout} {values : List String} {table : List (String × Json)}

theorem isFinite_texts (values : List String) : (Json.arr (texts values)).IsFinite := by
  show Json.ItemsFinite (texts values)
  induction values with
  | nil => trivial
  | cons v values ih => exact ⟨trivial, ih⟩

section Entries

variable {entries : List (String × String)} (h : List.Forall₂ (Together Holds) entries table)

include h

theorem isFinite_of_forall₂ : ∀ e ∈ table, e.2.IsFinite := by
  induction h with
  | nil => simp
  | @cons e f entries table hef _ ih =>
      obtain ⟨key, j⟩ := f
      obtain ⟨rfl, hj⟩ := hef
      refine List.forall_mem_cons.mpr ⟨?_, ih⟩
      cases hj with
      | text => trivial
      | number _ hfinite _ => exact hfinite

theorem keys_of_forall₂ : table.map Prod.fst = entries.map Prod.fst := by
  induction h with
  | nil => rfl
  | @cons e f entries table hef _ ih => rw [List.map_cons, List.map_cons, ih, hef.1]

/-- A table without numbers that do not fit is the same as the table of texts but for its form. -/
theorem interchangeable_of_forall₂ (hfits : ∀ e ∈ table, Fits e.1 e.2) :
    List.Forall₂ (Together Interchangeable)
      (entries.map fun e => (e.1, Json.str (trimText e.2))) table := by
  induction h with
  | nil => exact .nil
  | @cons e f entries table hef _ ih =>
      obtain ⟨key, j⟩ := f
      obtain ⟨rfl, hj⟩ := hef
      obtain ⟨hfit, hrest⟩ := List.forall_mem_cons.mp hfits
      refine .cons ⟨rfl, ?_⟩ (ih hrest)
      cases hj with
      | text => exact .refl _
      | number hkey _ htext =>
          obtain ⟨n, low, high, rfl, hrange, hlow, hhigh⟩ := hfit (by simp [htext])
          exact .number hrange hlow hhigh (Option.some.inj htext).symm

/-- Where no argument is a number, a table holds the texts. -/
theorem eq_of_forall₂ (hplain : ∀ e ∈ entries, numberRange? e.1 = none) :
    table = entries.map fun e => (e.1, Json.str (trimText e.2)) := by
  induction h with
  | nil => rfl
  | @cons e f entries table hef _ ih =>
      obtain ⟨key, j⟩ := f
      obtain ⟨rfl, hj⟩ := hef
      obtain ⟨hkey, hrest⟩ := List.forall_mem_cons.mp hplain
      cases hj with
      | text => rw [List.map_cons, ← ih hrest]
      | number hnumber => simp [hkey] at hnumber

/-- A number that does not fit stands for one of the values. -/
theorem exists_text_of_not_fits {e : String × Json} (he : e ∈ table) (hfit : ¬ Fits e.1 e.2) :
    (numberRange? e.1).isSome ∧
      ∃ v, (e.1, v) ∈ entries ∧ e.2.numberText? = some (trimText v) := by
  induction h with
  | nil => cases he
  | @cons e' f entries table hef _ ih =>
      rcases List.mem_cons.mp he with rfl | he
      · obtain ⟨key, j⟩ := e
        obtain ⟨rfl, hj⟩ := hef
        cases hj with
        | text => exact absurd (fun hnumber => nomatch hnumber) hfit
        | number hkey _ htext => exact ⟨hkey, e'.2, List.mem_cons_self, htext⟩
      · obtain ⟨hkey, v, hv, htext⟩ := ih he
        exact ⟨hkey, v, List.mem_cons_of_mem _ hv, htext⟩

end Entries

theorem sublist_map_fst_zip {α : Type} (names : List String) (values : List α) :
    ((names.zip values).map Prod.fst).Sublist names := by
  induction names generalizing values with
  | nil => simp
  | cons name names ih =>
      cases values with
      | nil => simp
      | cons v values => exact (ih values).cons_cons name

theorem zip_texts (names values : List String) :
    names.zip (texts values) =
      (names.zip values).map fun e => (e.1, Json.str (trimText e.2)) := by
  rw [texts, List.zip_map_right]
  rfl

theorem sublist_keys_textTable (layout : ArgumentLayout) (values : List String) :
    ((layout.textTable values).map Prod.fst).Sublist layout.names := by
  cases layout with
  | fields names => exact sublist_map_fst_zip names (texts values)
  | list name => exact .refl _

namespace Tabulates

variable (h : layout.Tabulates values table)

include h

theorem isFinite : ∀ e ∈ table, e.2.IsFinite := by
  cases layout with
  | fields names => exact isFinite_of_forall₂ h.2
  | list name =>
      obtain rfl := h
      intro e he
      obtain rfl := List.mem_singleton.mp he
      exact isFinite_texts values

/-- The keys of the table are among the names, in their order. -/
theorem sublist_keys : (table.map Prod.fst).Sublist layout.names := by
  cases layout with
  | fields names =>
      rw [keys_of_forall₂ h.2]
      exact sublist_map_fst_zip names values
  | list name =>
      obtain rfl := h
      exact .refl _

theorem interchangeable (hfits : ∀ e ∈ table, Fits e.1 e.2) :
    List.Forall₂ (Together Interchangeable) (layout.textTable values) table := by
  cases layout with
  | fields names =>
      rw [textTable, zip_texts]
      exact interchangeable_of_forall₂ h.2 hfits
  | list name =>
      obtain rfl := h
      exact .cons ⟨rfl, .refl _⟩ .nil

theorem eq_textTable (hplain : ∀ name ∈ layout.names, numberRange? name = none) :
    table = layout.textTable values := by
  cases layout with
  | fields names =>
      rw [textTable, zip_texts]
      exact eq_of_forall₂ h.2 fun e he => hplain e.1 (List.of_mem_zip he).1
  | list name => exact h

theorem exists_text {e : String × Json} (he : e ∈ table) (hfit : ¬ Fits e.1 e.2) :
    (numberRange? e.1).isSome ∧
      ∃ v, (e.1, .str (trimText v)) ∈ layout.textTable values ∧
        e.2.numberText? = some (trimText v) := by
  cases layout with
  | fields names =>
      obtain ⟨hkey, v, hv, htext⟩ := exists_text_of_not_fits h.2 he hfit
      refine ⟨hkey, v, ?_, htext⟩
      rw [textTable, zip_texts]
      exact List.mem_map.mpr ⟨_, hv, rfl⟩
  | list name =>
      obtain rfl := h
      obtain rfl := List.mem_singleton.mp he
      exact absurd (fun hnumber => nomatch hnumber) hfit

/-- A shortcut with these values has the arguments of the table of texts. -/
theorem nameArguments_shortcut (hne : values ≠ []) (hcount : values.length ≤ Decoder.max64) :
    layout.nameArguments (Dictionary.ofList (Shortcut.numbered 0 values)) =
      .ok (Dictionary.ofList (layout.textTable values)) := by
  rw [nameArguments_numbered hne hcount]
  cases layout with
  | fields names => exact if_neg (Nat.not_lt.mpr h.1)
  | list name => rfl

/-- A table keeps its own arguments, if the names are no generated keys. -/
theorem nameArguments_table (hnames : ∀ name ∈ layout.names, position? name = none) :
    layout.nameArguments (Dictionary.ofList table) = .ok (Dictionary.ofList table) := by
  refine nameArguments_of_named layout fun e he => hnames e.1 ?_
  have he : e ∈ table := Dictionary.mem_of_mem_ofList he
  exact h.sublist_keys.subset (List.mem_map_of_mem he)

end Tabulates

end ArgumentLayout

/-- A definition as a table of its name and arguments. -/
def Definition.table (name : String) (args : List (String × Json)) : Json :=
  .object [("name", .str name), ("args", .object args)]

theorem Definition.readTable_table {args : List (String × Json)} (name : String)
    (h : ∀ e ∈ args, e.2.IsFinite) :
    readTable (table name args) = .ok (name, Dictionary.ofList args, none) := by
  have hfinite : Json.FieldsFinite (Dictionary.ofList args) :=
    Json.fieldsFinite_of_forall fun e he => h e (Dictionary.mem_of_mem_ofList he)
  refine readTable_object hfinite (fun e he => ?_) rfl (.inl rfl) rfl
  simp only [List.mem_cons, List.not_mem_nil, or_false] at he
  exact he.imp_right .inl

namespace PredicateKind

theorem parse_write (kind : PredicateKind) {values : List String} (hne : values ≠ [])
    (hcommas : ∀ v ∈ values, ',' ∉ v.toList) :
    PredicateDefinition.parse (Shortcut.write kind.name values) =
      .ok { name := kind.name, args := Dictionary.ofList (Shortcut.numbered 0 values) } := by
  have hname : '=' ∉ kind.name.toList ∧ trimText kind.name = kind.name ∧ kind.name ≠ "" := by
    cases kind <;> decide
  rw [PredicateDefinition.parse,
    Shortcut.parse_write hname.1 hname.2.1 hname.2.2 hne hcommas]
  rfl

theorem ofName?_name (kind : PredicateKind) : ofName? kind.name = some kind := by
  cases kind <;> rfl

theorem position?_name (kind : PredicateKind) :
    ∀ name ∈ kind.layout.names, ArgumentLayout.position? name = none := by
  cases kind <;> decide

theorem numberRange?_name (kind : PredicateKind) :
    ∀ name ∈ kind.layout.names, numberRange? name = none := by
  cases kind <;> decide

end PredicateKind

namespace FilterKind

theorem parse_write (kind : FilterKind) {values : List String} (hne : values ≠ [])
    (hcommas : ∀ v ∈ values, ',' ∉ v.toList) :
    FilterDefinition.parse (Shortcut.write kind.name values) =
      .ok { name := kind.name, args := Dictionary.ofList (Shortcut.numbered 0 values) } := by
  have hname : '=' ∉ kind.name.toList ∧ trimText kind.name = kind.name ∧ kind.name ≠ "" := by
    cases kind <;> decide
  rw [FilterDefinition.parse,
    Shortcut.parse_write hname.1 hname.2.1 hname.2.2 hne hcommas]
  rfl

theorem ofName?_name (kind : FilterKind) : ofName? kind.name = some kind := by
  cases kind <;> rfl

theorem position?_name (kind : FilterKind) :
    ∀ name ∈ kind.layout.names, ArgumentLayout.position? name = none := by
  cases kind <;> decide

theorem nodup_names (kind : FilterKind) : kind.layout.names.Nodup := by
  cases kind <;> decide

end FilterKind

namespace PredicateSpec

theorem ofDefinition_of_named {kind : PredicateKind} {args named : Fields}
    (h : kind.layout.nameArguments args = .ok named) :
    ofDefinition { name := kind.name, args } =
      (ofArgs kind named).mapError fun cause => .invalidArguments kind.name (.shape cause) := by
  simp only [ofDefinition, kind.ofName?_name, h]
  cases ofArgs kind named <;> rfl

end PredicateSpec

namespace FilterSpec

variable {kind : FilterKind} {values : List String} {table : List (String × Json)}

theorem ofDefinition_of_named {args named : Fields}
    (h : kind.layout.nameArguments args = .ok named) :
    ofDefinition { name := kind.name, args } =
      (ofArgs kind named).mapError fun cause => .invalidArguments kind.name (.shape cause) := by
  simp only [ofDefinition, kind.ofName?_name, h]
  cases ofArgs kind named <;> rfl

theorem exists_fault {args named : Fields} (h : kind.layout.nameArguments args = .ok named)
    (hrefused : ∀ spec, ofArgs kind named ≠ .ok spec) :
    ∃ fault, ofDefinition { name := kind.name, args } =
      .error (.invalidArguments kind.name fault) := by
  rw [ofDefinition_of_named h]
  cases hargs : ofArgs kind named with
  | ok spec => exact absurd hargs (hrefused spec)
  | error cause => exact ⟨_, rfl⟩

/-- A filter is not made of an argument that is a number but cannot be read. -/
theorem ofArgs_ne_ok {e : String × Json} (hkeys : (table.map Prod.fst).Sublist kind.layout.names)
    (he : e ∈ table) (hnumber : (numberRange? e.1).isSome) (hnull : e.2 ≠ .null)
    (hread : ¬ IsRead e.1 e.2) (spec : FilterSpec) :
    ofArgs kind (Dictionary.ofList table) ≠ .ok spec := by
  have hnodup : (table.map Prod.fst).Nodup := hkeys.nodup kind.nodup_names
  have hmem : e ∈ Dictionary.ofList table := (Dictionary.perm_ofList hnodup).mem_iff.mpr he
  have hname : e.1 ∈ kind.layout.names := hkeys.subset (List.mem_map_of_mem he)
  exact fun hargs => hread (isRead_of_ofArgs hargs hmem hname hnumber hnull)

end FilterSpec

open ArgumentLayout Definition in
/-- A shortcut and a table agree. Any texts without commas make a shortcut for every kind of
predicate and filter, and it is decoded as the table that holds them, without the blanks around
them, as texts: in their order, as a list or under the names of their places. More values than
there are names are refused. A number may stand for its text if it is a whole one within the bounds
of its argument; the table is refused if it holds any other, and so is the shortcut with its text,
unless the argument is a status. -/
theorem shortcut_agrees_with_table {values : List String} (hne : values ≠ [])
    (hcommas : ∀ v ∈ values, ',' ∉ v.toList) (hcount : values.length ≤ Decoder.max64) :
    (∀ kind : PredicateKind, ∃ d,
      PredicateDefinition.parse (Shortcut.write kind.name values) = .ok d ∧
      (∀ args, kind.layout.Tabulates values args → ∃ t,
        PredicateDefinition.ofJson (table kind.name args) = .ok t ∧
          PredicateSpec.ofDefinition d = PredicateSpec.ofDefinition t) ∧
      ∀ names, kind.layout = .fields names → names.length < values.length →
        PredicateSpec.ofDefinition d =
          .error (.invalidArguments kind.name (.tooMany names.length values.length))) ∧
    ∀ kind : FilterKind, ∃ d,
      FilterDefinition.parse (Shortcut.write kind.name values) = .ok d ∧
      (∀ args, kind.layout.Tabulates values args → ∃ t,
        FilterDefinition.ofJson (table kind.name args) = .ok t ∧
          ((∀ e ∈ args, Fits e.1 e.2) →
            FilterSpec.ofDefinition d = FilterSpec.ofDefinition t) ∧
          ∀ e ∈ args, ¬ Fits e.1 e.2 →
            (∃ fault, FilterSpec.ofDefinition t = .error (.invalidArguments kind.name fault)) ∧
            (e.1 ≠ "status" → ∃ fault,
              FilterSpec.ofDefinition d = .error (.invalidArguments kind.name fault))) ∧
      ∀ names, kind.layout = .fields names → names.length < values.length →
        FilterSpec.ofDefinition d =
          .error (.invalidArguments kind.name (.tooMany names.length values.length)) := by
  constructor
  · intro kind
    refine ⟨_, kind.parse_write hne hcommas, fun args hargs => ?_, fun names hlayout hmany => ?_⟩
    · have htable := hargs.nameArguments_table kind.position?_name
      refine ⟨_, map_eq_ok_iff.mpr ⟨_, readTable_table kind.name hargs.isFinite, rfl⟩, ?_⟩
      rw [PredicateSpec.ofDefinition_of_named (hargs.nameArguments_shortcut hne hcount),
        PredicateSpec.ofDefinition_of_named htable, hargs.eq_textTable kind.numberRange?_name]
    · have hnamed := nameArguments_numbered hne hcount kind.layout
      simp only [hlayout, if_pos hmany] at hnamed
      simp only [PredicateSpec.ofDefinition, kind.ofName?_name, hlayout, hnamed]
  · intro kind
    refine ⟨_, kind.parse_write hne hcommas, fun args hargs => ?_, fun names hlayout hmany => ?_⟩
    · have hshortcut := hargs.nameArguments_shortcut hne hcount
      have htable := hargs.nameArguments_table kind.position?_name
      refine ⟨_, map_eq_ok_iff.mpr ⟨_, readTable_table kind.name hargs.isFinite, rfl⟩,
        fun hfits => ?_, fun e he hfit => ?_⟩
      · rw [FilterSpec.ofDefinition_of_named hshortcut, FilterSpec.ofDefinition_of_named htable,
          FilterSpec.ofArgs_congr kind (Dictionary.forall₂_ofList (hargs.interchangeable hfits))]
      · obtain ⟨hnumber, v, hv, htext⟩ := hargs.exists_text he hfit
        have hnull : e.2 ≠ .null := fun hnull => by simp [hnull, Json.numberText?] at htext
        refine ⟨FilterSpec.exists_fault htable (FilterSpec.ofArgs_ne_ok hargs.sublist_keys he
          hnumber hnull (not_isRead_of_not_fits hnumber hfit)), fun hstatus => ?_⟩
        exact FilterSpec.exists_fault hshortcut (FilterSpec.ofArgs_ne_ok
          (sublist_keys_textTable kind.layout values) hv hnumber (fun hnull => nomatch hnull)
          (not_isRead_str_of_not_fits hnumber hstatus htext hfit))
    · have hnamed := nameArguments_numbered hne hcount kind.layout
      simp only [hlayout, if_pos hmany] at hnamed
      simp only [FilterSpec.ofDefinition, kind.ofName?_name, hlayout, hnamed]

open ArgumentLayout Definition in
/-- Two rates with blanks around one of them, and a table that has one as a number and the other as a
text. -/
theorem shortcut_agrees_with_table_of_rates :
    ∃ d t, FilterDefinition.parse "RequestRateLimiter= 10 ,20" = .ok d ∧
      FilterDefinition.ofJson (table "RequestRateLimiter"
        [("replenish_rate", .int 10), ("burst_capacity", .str "20")]) = .ok t ∧
      FilterSpec.ofDefinition d = FilterSpec.ofDefinition t ∧
      FilterSpec.ofDefinition t =
        .ok (.rateLimiter { replenishRate := 10, burstCapacity := 20 }) := by
  have htabulates : FilterKind.rateLimiter.layout.Tabulates [" 10 ", "20"]
      [("replenish_rate", .int 10), ("burst_capacity", .str "20")] :=
    ⟨by decide, .cons ⟨rfl, .number rfl trivial rfl⟩ (.cons ⟨rfl, .text⟩ .nil)⟩
  have hfits : ∀ e ∈ [("replenish_rate", Json.int 10), ("burst_capacity", Json.str "20")],
      Fits e.1 e.2 := by
    simp only [List.forall_mem_cons]
    exact ⟨fun _ => ⟨10, 0, Decoder.max32, rfl, rfl, by decide, by decide⟩,
      fun hnumber => (nomatch hnumber), fun _ hnil => nomatch hnil⟩
  have hne : [" 10 ", "20"] ≠ [] := by decide
  obtain ⟨d, hd, htables, -⟩ :=
    (shortcut_agrees_with_table hne (by decide) (by decide)).2 .rateLimiter
  obtain ⟨t, ht, hagree, -⟩ := htables _ htabulates
  refine ⟨d, t, hd, ht, hagree hfits, ?_⟩
  cases ht
  cbv

/-- A status beyond 64 bits: the number is refused where its text is decoded. -/
theorem shortcut_agrees_with_table_fails :
    let shortcut : FilterDefinition :=
      { name := "SetStatus", args := [("_genkey_0", .str "9223372036854775808")] }
    let table : FilterDefinition :=
      { name := "SetStatus", args := [("status", .int 9223372036854775808)] }
    FilterDefinition.parse "SetStatus=9223372036854775808" = .ok shortcut ∧
      FilterDefinition.ofJson
        (Definition.table "SetStatus" [("status", .int 9223372036854775808)]) = .ok table ∧
      Json.numberText? (.int 9223372036854775808) = some "9223372036854775808" ∧
      FilterSpec.ofDefinition shortcut = .ok (.setStatus "9223372036854775808") ∧
      FilterSpec.ofDefinition table =
        .error (.invalidArguments "SetStatus" (.shape (.noVariant "Scalar"))) :=
  ⟨by rfl, by rfl, by decide, by cbv, by cbv⟩

end HttpGateway
