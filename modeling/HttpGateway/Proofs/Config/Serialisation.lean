import HttpGateway.Config.Basic
import HttpGateway.Proofs.Definition.Serialisation

/-!
# Configurations written and read again

A configuration is written with all of its settings, so none of the usual values is needed to read
it again: what is read is the configuration that was written. Numbers of settings fit a word, as do
those of any configuration that has been read.
-/

namespace HttpGateway

theorem Config.of_setting {α : Type} {P : α → Prop} {name : String} {read : Decoder α} {usual a : α}
    {found : List (String × Json)} (h : (setting name read usual).take found = .ok a)
    (hread : ∀ j a, read j = .ok a → P a) (husual : P usual) : P a := by
  refine Field.of_take h hread ?_
  rintro _ ⟨⟩
  exact husual

theorem Config.natural_setting_le {name type : String} {high usual n : Nat}
    {found : List (String × Json)}
    (h : (setting name (Decoder.natural type high) usual).take found = .ok n)
    (husual : usual ≤ high) : n ≤ high :=
  of_setting (P := (· ≤ high)) h (fun _ _ => Decoder.natural_le) husual

namespace ListenerConfig

/-- The numbers fit a word. -/
def IsWritable (c : ListenerConfig) : Prop := c.maxConnections ≤ Decoder.max64

theorem ofJson_assemble (origin : Origin) {c : ListenerConfig} (h : c.IsWritable) :
    ofJson origin (c.assemble .object) = .ok c := by
  have hbind : bindField.read (.str c.bindAddress) = .ok c.bindAddress := rfl
  have hconnections : connectionsField.read (.int c.maxConnections) = .ok c.maxConnections :=
    Decoder.natural_int h
  refine bind_eq_ok_iff.mpr ⟨_, RecordRule.entries_full_object origin rfl ?_, ?_⟩
  · simp only [List.forall_mem_cons]
    exact ⟨⟨_, rfl, Field.check_rule hbind⟩, ⟨_, rfl, Field.check_rule hconnections⟩,
      fun _ hnil => nomatch hnil⟩
  · exact bind_eq_ok_iff.mpr ⟨_, Field.take_ofList rfl hbind,
      bind_eq_ok_iff.mpr ⟨_, Field.take_ofList rfl hconnections, rfl⟩⟩

theorem isWritable_of_ofJson {origin : Origin} {j : Json} {c : ListenerConfig}
    (h : ofJson origin j = .ok c) : c.IsWritable := by
  obtain ⟨found, -, h⟩ := bind_eq_ok_iff.mp h
  obtain ⟨address, -, h⟩ := bind_eq_ok_iff.mp h
  obtain ⟨connections, hconnections, h⟩ := bind_eq_ok_iff.mp h
  cases h
  exact Config.natural_setting_le hconnections (by decide)

theorem isWritable_usual : ({} : ListenerConfig).IsWritable :=
  show (10000 : Nat) ≤ Decoder.max64 by decide

end ListenerConfig

namespace TimeoutConfig

/-- The numbers fit a word. -/
structure IsWritable (c : TimeoutConfig) : Prop where
  connect : c.connectSecs ≤ Decoder.max64
  upstream : c.upstreamSecs ≤ Decoder.max64
  request : c.requestSecs ≤ Decoder.max64

theorem ofJson_assemble (origin : Origin) {c : TimeoutConfig} (h : c.IsWritable) :
    ofJson origin (c.assemble .object) = .ok c := by
  have hconnect : connectField.read (.int c.connectSecs) = .ok c.connectSecs :=
    Decoder.natural_int h.connect
  have hupstream : upstreamField.read (.int c.upstreamSecs) = .ok c.upstreamSecs :=
    Decoder.natural_int h.upstream
  have hrequest : requestField.read (.int c.requestSecs) = .ok c.requestSecs :=
    Decoder.natural_int h.request
  refine bind_eq_ok_iff.mpr ⟨_, RecordRule.entries_full_object origin rfl ?_, ?_⟩
  · simp only [List.forall_mem_cons]
    exact ⟨⟨_, rfl, Field.check_rule hconnect⟩, ⟨_, rfl, Field.check_rule hupstream⟩,
      ⟨_, rfl, Field.check_rule hrequest⟩, fun _ hnil => nomatch hnil⟩
  · exact bind_eq_ok_iff.mpr ⟨_, Field.take_ofList rfl hconnect,
      bind_eq_ok_iff.mpr ⟨_, Field.take_ofList rfl hupstream,
        bind_eq_ok_iff.mpr ⟨_, Field.take_ofList rfl hrequest, rfl⟩⟩⟩

theorem isWritable_of_ofJson {origin : Origin} {j : Json} {c : TimeoutConfig}
    (h : ofJson origin j = .ok c) : c.IsWritable := by
  obtain ⟨found, -, h⟩ := bind_eq_ok_iff.mp h
  obtain ⟨connect, hconnect, h⟩ := bind_eq_ok_iff.mp h
  obtain ⟨upstream, hupstream, h⟩ := bind_eq_ok_iff.mp h
  obtain ⟨request, hrequest, h⟩ := bind_eq_ok_iff.mp h
  cases h
  constructor
  · exact Config.natural_setting_le hconnect (by decide)
  · exact Config.natural_setting_le hupstream (by decide)
  · exact Config.natural_setting_le hrequest (by decide)

theorem isWritable_usual : ({} : TimeoutConfig).IsWritable :=
  ⟨by decide, by decide, by decide⟩

end TimeoutConfig

namespace LimitsConfig

/-- The numbers fit a word. -/
def IsWritable (c : LimitsConfig) : Prop := c.maxBodyBytes ≤ Decoder.max64

theorem ofJson_assemble (origin : Origin) {c : LimitsConfig} (h : c.IsWritable) :
    ofJson origin (c.assemble .object) = .ok c := by
  have hbody : bodyField.read (.int c.maxBodyBytes) = .ok c.maxBodyBytes := Decoder.natural_int h
  refine bind_eq_ok_iff.mpr ⟨_, RecordRule.entries_full_object origin rfl ?_, ?_⟩
  · simp only [List.forall_mem_cons]
    exact ⟨⟨_, rfl, Field.check_rule hbody⟩, fun _ hnil => nomatch hnil⟩
  · exact bind_eq_ok_iff.mpr ⟨_, Field.take_ofList rfl hbody, rfl⟩

theorem isWritable_of_ofJson {origin : Origin} {j : Json} {c : LimitsConfig}
    (h : ofJson origin j = .ok c) : c.IsWritable := by
  obtain ⟨found, -, h⟩ := bind_eq_ok_iff.mp h
  obtain ⟨body, hbody, h⟩ := bind_eq_ok_iff.mp h
  cases h
  exact Config.natural_setting_le hbody (by decide)

theorem isWritable_usual : ({} : LimitsConfig).IsWritable :=
  show (1048576 : Nat) ≤ Decoder.max64 by decide

end LimitsConfig

theorem ObservabilityConfig.ofJson_assemble (origin : Origin) (c : ObservabilityConfig) :
    ofJson origin (c.assemble .object) = .ok c := by
  have hlevel : levelField.read (.str c.logLevel) = .ok c.logLevel := rfl
  have hformat : (formatField origin).read (.str (formatName c.logFormat)) = .ok c.logFormat := by
    cases c.logFormat <;> rfl
  have henabled : enabledField.read (.bool c.metricsEnabled) = .ok c.metricsEnabled := rfl
  have haddress : addressField.read (.str c.metricsAddress) = .ok c.metricsAddress := rfl
  refine bind_eq_ok_iff.mpr ⟨_, RecordRule.entries_full_object origin rfl ?_, ?_⟩
  · simp only [List.forall_mem_cons]
    exact ⟨⟨_, rfl, Field.check_rule hlevel⟩, ⟨_, rfl, Field.check_rule hformat⟩,
      ⟨_, rfl, Field.check_rule henabled⟩, ⟨_, rfl, Field.check_rule haddress⟩,
      fun _ hnil => nomatch hnil⟩
  · exact bind_eq_ok_iff.mpr ⟨_, Field.take_ofList rfl hlevel,
      bind_eq_ok_iff.mpr ⟨_, Field.take_ofList rfl hformat,
        bind_eq_ok_iff.mpr ⟨_, Field.take_ofList rfl henabled,
          bind_eq_ok_iff.mpr ⟨_, Field.take_ofList rfl haddress, rfl⟩⟩⟩⟩

namespace GatewayConfig

/-- The numbers of the settings fit a word, and structured values can hold the definitions. -/
structure IsWritable (c : GatewayConfig) : Prop where
  listener : c.listener.IsWritable
  timeouts : c.timeouts.IsWritable
  limits : c.limits.IsWritable
  defaultFilters : ∀ f ∈ c.defaultFilters, f.IsWritable
  routes : ∀ r ∈ c.routes, r.IsWritable

theorem ofJson_toJson (origin : Origin) {c : GatewayConfig} (h : c.IsWritable) :
    ofJson origin c.toJson = .ok c := by
  have hlistener : (listenerField origin).read (c.listener.assemble .object) = .ok c.listener :=
    ListenerConfig.ofJson_assemble origin h.listener
  have htimeouts : (timeoutsField origin).read (c.timeouts.assemble .object) = .ok c.timeouts :=
    TimeoutConfig.ofJson_assemble origin h.timeouts
  have hlimits : (limitsField origin).read (c.limits.assemble .object) = .ok c.limits :=
    LimitsConfig.ofJson_assemble origin h.limits
  have hobservability :
      (observabilityField origin).read (c.observability.assemble .object) = .ok c.observability :=
    ObservabilityConfig.ofJson_assemble origin c.observability
  have hfilters : filtersField.read (.arr (c.defaultFilters.map FilterDefinition.toJson)) =
      .ok c.defaultFilters :=
    Decoder.list_map fun f hf => FilterDefinition.ofJson_toJson (h.defaultFilters f hf)
  have hroutes : (routesField origin).read (.arr (c.routes.map RouteDefinition.toJson)) =
      .ok c.routes :=
    Decoder.list_map fun r hr => RouteDefinition.ofJson_toJson origin (h.routes r hr)
  refine bind_eq_ok_iff.mpr ⟨_, RecordRule.entries_full_object origin rfl ?_, ?_⟩
  · simp only [List.forall_mem_cons]
    exact ⟨⟨_, rfl, Field.check_rule hlistener⟩, ⟨_, rfl, Field.check_rule htimeouts⟩,
      ⟨_, rfl, Field.check_rule hlimits⟩, ⟨_, rfl, Field.check_rule hobservability⟩,
      ⟨_, rfl, Field.check_rule hfilters⟩, ⟨_, rfl, Field.check_rule hroutes⟩,
      fun _ hnil => nomatch hnil⟩
  · exact bind_eq_ok_iff.mpr ⟨_, Field.take_ofList rfl hlistener,
      bind_eq_ok_iff.mpr ⟨_, Field.take_ofList rfl htimeouts,
        bind_eq_ok_iff.mpr ⟨_, Field.take_ofList rfl hlimits,
          bind_eq_ok_iff.mpr ⟨_, Field.take_ofList rfl hobservability,
            bind_eq_ok_iff.mpr ⟨_, Field.take_ofList rfl hfilters,
              bind_eq_ok_iff.mpr ⟨_, Field.take_ofList rfl hroutes, rfl⟩⟩⟩⟩⟩⟩

theorem isWritable_of_ofJson {origin : Origin} {j : Json} {c : GatewayConfig}
    (h : ofJson origin j = .ok c) : c.IsWritable := by
  obtain ⟨found, -, h⟩ := bind_eq_ok_iff.mp h
  obtain ⟨listener, hlistener, h⟩ := bind_eq_ok_iff.mp h
  obtain ⟨timeouts, htimeouts, h⟩ := bind_eq_ok_iff.mp h
  obtain ⟨limits, hlimits, h⟩ := bind_eq_ok_iff.mp h
  obtain ⟨observability, -, h⟩ := bind_eq_ok_iff.mp h
  obtain ⟨filters, hfilters, h⟩ := bind_eq_ok_iff.mp h
  obtain ⟨routes, hroutes, h⟩ := bind_eq_ok_iff.mp h
  cases h
  constructor
  · exact Config.of_setting (P := ListenerConfig.IsWritable) hlistener
      (fun _ _ => ListenerConfig.isWritable_of_ofJson) ListenerConfig.isWritable_usual
  · exact Config.of_setting (P := TimeoutConfig.IsWritable) htimeouts
      (fun _ _ => TimeoutConfig.isWritable_of_ofJson) TimeoutConfig.isWritable_usual
  · exact Config.of_setting (P := LimitsConfig.IsWritable) hlimits
      (fun _ _ => LimitsConfig.isWritable_of_ofJson) LimitsConfig.isWritable_usual
  · refine Config.of_setting (P := fun fs => ∀ f ∈ fs, f.IsWritable) hfilters (fun j fs hfs => ?_)
      fun _ hf => nomatch hf
    exact Decoder.of_list hfs fun _ _ => FilterDefinition.isWritable_of_ofJson
  · refine Config.of_setting (P := fun rs => ∀ r ∈ rs, r.IsWritable) hroutes (fun j rs hrs => ?_)
      fun _ hr => nomatch hr
    exact Decoder.of_list hrs fun _ _ => RouteDefinition.isWritable_of_ofJson

end GatewayConfig

end HttpGateway
