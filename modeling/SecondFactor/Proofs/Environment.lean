import SecondFactor.Config.Environment
import SecondFactor.Proofs.Decimal

/-!
# The Configuration That Variables Describe

The variables of an environment describe a configuration if each field is what its variable denotes,
or the default where the variable is not set (`Environment.Describes`). A variable offends if it is
set to something that denotes no value of its kind (`Environment.Offends`). The main statement is
`config_eq_iff`: the configuration that is read is the one described, the error is that of the first
variable that offends, and a described configuration that is not valid is refused by its own check.
-/

namespace SecondFactor.Environment

variable {env : Environment} {config : Config} {setting : Setting} {settings : List Setting}
  {e : ConfigError}

/-! ## What variables denote -/

/-- A value is the one that a variable denotes, or the default if the variable is not set. -/
def Gives {α : Type} (env : Environment) (setting : Setting) (Denotes : String → α → Prop)
    (default a : α) : Prop :=
  (env setting = none ∧ a = default) ∨ ∃ value, env setting = some value ∧ Denotes value a

/-- A value of a variable denotes a number: blanks, zeros and a plus sign do not count. -/
def DenotesNumber (value : String) (n : UInt64) : Prop :=
  Text.Denotes n.toNat value.toList

/-- The configuration that the variables describe. The memo prefix and the name of the policy are
taken as they stand. -/
structure Describes (env : Environment) (config : Config) : Prop where
  /-- The memo prefix. -/
  memoPrefix : env.Gives .memoPrefix Eq ({} : Config).memoPrefix config.memoPrefix
  /-- The height of genesis. -/
  genesisHeight : env.Gives .genesisHeight DenotesNumber ({} : Config).genesisHeight
    config.genesisHeight
  /-- The first height with vote extensions. -/
  extensionsEnableHeight : env.Gives .extensionsEnableHeight DenotesNumber
    ({} : Config).extensionsEnableHeight config.extensionsEnableHeight
  /-- The bound on the entries of an aggregate. -/
  maxAggregateEntries : env.Gives .maxAggregateEntries DenotesNumber
    ({} : Config).maxAggregateEntries config.maxAggregateEntries
  /-- The policy. -/
  rebindPolicy : env.Gives .rebindPolicy (fun value policy => value = policy.name)
    ({} : Config).rebindPolicy config.rebindPolicy

/-- All five variables are set to renderings of the fields of a configuration. -/
structure Renders (env : Environment) (config : Config) : Prop where
  /-- The memo prefix as it is. -/
  memoPrefix : env .memoPrefix = some config.memoPrefix
  /-- A rendering of the height of genesis. -/
  genesisHeight : ∃ value, env .genesisHeight = some value ∧
    DenotesNumber value config.genesisHeight
  /-- A rendering of the first height with vote extensions. -/
  extensionsEnableHeight : ∃ value, env .extensionsEnableHeight = some value ∧
    DenotesNumber value config.extensionsEnableHeight
  /-- A rendering of the bound on the entries of an aggregate. -/
  maxAggregateEntries : ∃ value, env .maxAggregateEntries = some value ∧
    DenotesNumber value config.maxAggregateEntries
  /-- The name of the policy. -/
  rebindPolicy : env .rebindPolicy = some config.rebindPolicy.name

/-- Variables that render a configuration describe it. -/
theorem Renders.describes (h : env.Renders config) : env.Describes config where
  memoPrefix := .inr ⟨_, h.memoPrefix, rfl⟩
  genesisHeight := .inr h.genesisHeight
  extensionsEnableHeight := .inr h.extensionsEnableHeight
  maxAggregateEntries := .inr h.maxAggregateEntries
  rebindPolicy := .inr ⟨_, h.rebindPolicy, rfl⟩

/-! ## Variables that offend -/

/-- The variables that hold numbers. -/
def numberSettings : List Setting :=
  [.genesisHeight, .extensionsEnableHeight, .maxAggregateEntries]

/-- A variable is set to something that denotes no value of its kind; the error names what it is set
to. -/
inductive Offends (env : Environment) : Setting → ConfigError → Prop
  /-- It should hold a number. -/
  | number {setting : Setting} {value : String} (hnumber : setting ∈ numberSettings)
      (h : env setting = some value) (hnone : ∀ n, ¬DenotesNumber value n) :
      Offends env setting (.invalidValue setting value)
  /-- It should name a policy. -/
  | policy {value : String} (h : env .rebindPolicy = some value)
      (hnone : ∀ policy : RebindPolicy, value ≠ policy.name) :
      Offends env .rebindPolicy (.unknownRebindPolicy value)

/-- An error is that of the first one of the variables that offends. -/
def FirstOffence (env : Environment) (settings : List Setting) (e : ConfigError) : Prop :=
  ∃ before setting after, settings = before ++ setting :: after ∧ env.Offends setting e ∧
    ∀ earlier ∈ before, ∀ e', ¬env.Offends earlier e'

/-- The variables that may offend, in the order in which they are read. -/
def readSettings : List Setting :=
  numberSettings ++ [.rebindPolicy]

theorem not_firstOffence_nil : ¬env.FirstOffence [] e := by
  rintro ⟨before, setting, after, h, -⟩
  cases before <;> cases h

/-- The first variable offends, or it does not and the first one of the others does. -/
theorem firstOffence_cons : env.FirstOffence (setting :: settings) e ↔
    env.Offends setting e ∨ (∀ e', ¬env.Offends setting e') ∧ env.FirstOffence settings e := by
  constructor
  · rintro ⟨before, offender, after, heq, hoffends, hbefore⟩
    cases before with
    | nil =>
      obtain ⟨rfl, -⟩ := List.cons.inj heq
      exact .inl hoffends
    | cons first before =>
      obtain ⟨rfl, rfl⟩ := List.cons.inj heq
      obtain ⟨hfirst, hbefore⟩ := List.forall_mem_cons.1 hbefore
      exact .inr ⟨hfirst, before, offender, after, rfl, hoffends, hbefore⟩
  · rintro (hoffends | ⟨hfirst, before, offender, after, rfl, hoffends, hbefore⟩)
    · exact ⟨[], setting, settings, rfl, hoffends, nofun⟩
    · exact ⟨setting :: before, offender, after, rfl, hoffends,
        List.forall_mem_cons.2 ⟨hfirst, hbefore⟩⟩

/-! ## What is read from a variable -/

section Reading

variable {α : Type} {read : String → Option α} {fault : String → ConfigError} {default a : α}
  {Denotes : String → α → Prop}

/-- What a reader makes of a variable, or a default if the variable is not set. -/
def readOr (env : Environment) (setting : Setting) (read : String → Option α)
    (fault : String → ConfigError) (default : α) : Except ConfigError α :=
  match env setting with
  | none => .ok default
  | some value =>
    match read value with
    | some a => .ok a
    | none => .error (fault value)

/-- A value is read exactly if its variable denotes it. -/
theorem readOr_eq_ok_iff (hread : ∀ value a, read value = some a ↔ Denotes value a) :
    env.readOr setting read fault default = .ok a ↔ env.Gives setting Denotes default a := by
  unfold readOr Gives
  cases env setting with
  | none => simp [eq_comm]
  | some value =>
    simp only [← hread]
    cases hvalue : read value <;> simp [hvalue]

/-- Nothing is read exactly if the variable is set to something that denotes nothing. -/
theorem readOr_eq_error_iff (hread : ∀ value a, read value = some a ↔ Denotes value a) :
    env.readOr setting read fault default = .error e ↔
      ∃ value, env setting = some value ∧ fault value = e ∧ ∀ a, ¬Denotes value a := by
  unfold readOr
  cases env setting with
  | none => simp
  | some value =>
    simp only [← hread]
    cases hvalue : read value <;> simp [hvalue]

end Reading

/-- The number that a value denotes. -/
def readNumber (value : String) : Option UInt64 :=
  (Text.readDecimal? UInt64.size (Text.trimChars value.toList)).map UInt64.ofNat

theorem readNumber_eq_some_iff (value : String) (n : UInt64) :
    readNumber value = some n ↔ DenotesNumber value n := by
  simp only [readNumber, Option.map_eq_some_iff, Text.readDecimal?_trimChars_eq_some_iff,
    DenotesNumber]
  constructor
  · rintro ⟨m, ⟨hm, h⟩, rfl⟩
    rwa [UInt64.toNat_ofNat_of_lt' hm]
  · intro h
    exact ⟨n.toNat, ⟨n.toNat_lt, h⟩, UInt64.ofNat_toNat⟩

theorem ofName?_eq_some_iff (value : String) (policy : RebindPolicy) :
    RebindPolicy.ofName? value = some policy ↔ value = policy.name := by
  have hnames : ∀ policy : RebindPolicy, RebindPolicy.ofName? policy.name = some policy := by
    rintro (_ | _) <;> rfl
  constructor
  · intro h
    simp only [RebindPolicy.ofName?, RebindPolicy.named, List.map_cons, List.map_nil,
      List.lookup_cons, List.lookup_nil] at h
    grind
  · rintro rfl
    exact hnames policy

theorem number_eq (env : Environment) (setting : Setting) (default : UInt64) :
    env.number setting default =
      env.readOr setting readNumber (.invalidValue setting) default := by
  unfold number readOr readNumber
  cases env setting with
  | none => rfl
  | some value =>
    dsimp only
    cases Text.readDecimal? UInt64.size (Text.trimChars value.toList) <;> rfl

theorem policy_eq (env : Environment) (default : RebindPolicy) :
    env.policy default =
      env.readOr .rebindPolicy RebindPolicy.ofName? .unknownRebindPolicy default := by
  unfold policy readOr
  cases env .rebindPolicy with
  | none => rfl
  | some value =>
    dsimp only
    cases RebindPolicy.ofName? value <;> rfl

/-- What is not read as a number is an offence. -/
theorem number_eq_error_iff (hnumber : setting ∈ numberSettings) {default : UInt64} :
    env.number setting default = .error e ↔ env.Offends setting e := by
  rw [number_eq, readOr_eq_error_iff readNumber_eq_some_iff]
  constructor
  · rintro ⟨value, h, rfl, hnone⟩
    exact .number hnumber h hnone
  · rintro (⟨-, h, hnone⟩ | ⟨h, hnone⟩)
    · exact ⟨_, h, rfl, hnone⟩
    · exact absurd hnumber (by decide)

/-- What is not read as a policy is an offence. -/
theorem policy_eq_error_iff {default : RebindPolicy} :
    env.policy default = .error e ↔ env.Offends .rebindPolicy e := by
  rw [policy_eq, readOr_eq_error_iff ofName?_eq_some_iff]
  constructor
  · rintro ⟨value, h, rfl, hnone⟩
    exact .policy h hnone
  · rintro (⟨hnumber, -, -⟩ | ⟨h, hnone⟩)
    · exact absurd hnumber (by decide)
    · exact ⟨_, h, rfl, hnone⟩

/-! ## What is read from an environment -/

theorem bind_eq_ok_iff {ε α β : Type} {x : Except ε α} {f : α → Except ε β} {b : β} :
    (x >>= f) = .ok b ↔ ∃ a, x = .ok a ∧ f a = .ok b := by
  cases x with
  | ok a => simp [bind, Except.bind]
  | error e => simp [bind, Except.bind]

theorem bind_eq_error_iff {ε α β : Type} {x : Except ε α} {f : α → Except ε β} {e : ε} :
    (x >>= f) = .error e ↔ x = .error e ∨ ∃ a, x = .ok a ∧ f a = .error e := by
  cases x with
  | ok a => simp [bind, Except.bind]
  | error e => simp [bind, Except.bind]

/-- The configuration of the variables before it is checked. -/
def unchecked (env : Environment) : Except ConfigError Config := do
  let preset : Config := {}
  let genesisHeight ← env.number .genesisHeight preset.genesisHeight
  let enableHeight ← env.number .extensionsEnableHeight preset.extensionsEnableHeight
  let maxEntries ← env.number .maxAggregateEntries preset.maxAggregateEntries
  let policy ← env.policy preset.rebindPolicy
  return ⟨(env .memoPrefix).getD preset.memoPrefix, genesisHeight, enableHeight, maxEntries, policy⟩

theorem config_eq (env : Environment) :
    env.config = env.unchecked >>= fun config => config.validate >>= fun _ => .ok config := by
  simp only [config, unchecked, bind_assoc, pure_bind]
  rfl

theorem gives_memoPrefix_iff {memoPrefix default : String} :
    env.Gives .memoPrefix Eq default memoPrefix ↔ (env .memoPrefix).getD default = memoPrefix := by
  unfold Gives
  cases env .memoPrefix <;> simp [eq_comm]

/-- What is read before the check is the configuration that the variables describe. -/
theorem unchecked_eq_ok_iff : env.unchecked = .ok config ↔ env.Describes config := by
  have hnumber {setting : Setting} {default n : UInt64} : env.number setting default = .ok n ↔
      env.Gives setting DenotesNumber default n := by
    rw [number_eq, readOr_eq_ok_iff readNumber_eq_some_iff]
  have hpolicy {default policy : RebindPolicy} : env.policy default = .ok policy ↔
      env.Gives .rebindPolicy (fun value policy => value = policy.name) default policy := by
    rw [policy_eq, readOr_eq_ok_iff ofName?_eq_some_iff]
  simp only [unchecked, bind_eq_ok_iff, hnumber, hpolicy]
  constructor
  · rintro ⟨genesisHeight, hgenesis, enableHeight, henable, maxEntries, hmax, policy, hpolicy, ⟨⟩⟩
    exact ⟨gives_memoPrefix_iff.2 rfl, hgenesis, henable, hmax, hpolicy⟩
  · intro h
    refine ⟨_, h.genesisHeight, _, h.extensionsEnableHeight, _, h.maxAggregateEntries, _,
      h.rebindPolicy, ?_⟩
    rw [gives_memoPrefix_iff.1 h.memoPrefix]
    rfl

/-- One more variable is read before the others: it comes first among those that may offend. -/
theorem bind_eq_error_iff_firstOffence {α β : Type} {x : Except ConfigError α}
    {f : α → Except ConfigError β} (hx : ∀ e, x = .error e ↔ env.Offends setting e)
    (hf : ∀ a e, f a = .error e ↔ env.FirstOffence settings e) (e : ConfigError) :
    (x >>= f) = .error e ↔ env.FirstOffence (setting :: settings) e := by
  have hok : (∃ a, x = .ok a) ↔ ∀ e', ¬env.Offends setting e' := by
    simp only [← hx]
    cases x <;> simp
  rw [bind_eq_error_iff, firstOffence_cons, hx]
  simp only [hf, exists_and_right, hok]

/-- Reading fails before the check over the first variable that offends. -/
theorem unchecked_eq_error_iff : env.unchecked = .error e ↔ env.FirstOffence readSettings e := by
  refine bind_eq_error_iff_firstOffence (fun _ => number_eq_error_iff (by decide)) (fun _ => ?_) e
  refine bind_eq_error_iff_firstOffence (fun _ => number_eq_error_iff (by decide)) fun _ => ?_
  refine bind_eq_error_iff_firstOffence (fun _ => number_eq_error_iff (by decide)) fun _ => ?_
  refine bind_eq_error_iff_firstOffence (fun _ => policy_eq_error_iff) fun _ _ => ?_
  exact iff_of_false nofun not_firstOffence_nil

/-- Loading succeeds exactly for the configuration that the variables describe, if that is valid. It
fails with the error of the first variable that offends, and if none does with the error of the
check of the configuration described. In particular every valid configuration is loaded from every
rendering of its fields. -/
theorem config_eq_iff (env : Environment) :
    (∀ config, env.config = .ok config ↔ env.Describes config ∧ config.validate = .ok ()) ∧
    (∀ e, env.config = .error e ↔ env.FirstOffence readSettings e ∨
      ∃ config, env.Describes config ∧ config.validate = .error e) ∧
    ∀ config, config.validate = .ok () → env.Renders config → env.config = .ok config := by
  have hok (config : Config) :
      env.config = .ok config ↔ env.Describes config ∧ config.validate = .ok () := by
    rw [config_eq, bind_eq_ok_iff]
    simp only [unchecked_eq_ok_iff, bind_eq_ok_iff]
    constructor
    · rintro ⟨described, hdescribes, ⟨⟩, hvalid, ⟨⟩⟩
      exact ⟨hdescribes, hvalid⟩
    · rintro ⟨hdescribes, hvalid⟩
      exact ⟨config, hdescribes, (), hvalid, rfl⟩
  refine ⟨hok, fun e => ?_, fun config hvalid hrenders => ?_⟩
  · rw [config_eq, bind_eq_error_iff]
    simp only [unchecked_eq_error_iff, unchecked_eq_ok_iff, bind_eq_error_iff, reduceCtorEq,
      and_false, exists_false, or_false]
  · exact (hok config).2 ⟨hrenders.describes, hvalid⟩

/-- A configuration other than the default one in each field. -/
def tunedConfig : Config :=
  ⟨"2FA:", 7, 18446744073709551615, 1, .lastWriteWins⟩

/-- Variables that render it, with blanks, zeros and signs. -/
def tunedEnvironment : Environment
  | .memoPrefix => some "2FA:"
  | .genesisHeight => some "\u3000+007\n"
  | .extensionsEnableHeight => some "18446744073709551615"
  | .maxAggregateEntries => some " \t0001"
  | .rebindPolicy => some "last_write_wins"
  | .validatorKey => none

/-- The configuration is loaded from its renderings. -/
theorem config_tunedEnvironment :
    tunedConfig.validate = .ok () ∧ tunedEnvironment.Renders tunedConfig ∧
      tunedEnvironment.config = .ok tunedConfig := by
  have hvalid : tunedConfig.validate = .ok () := by decide +kernel
  have hgenesis : DenotesNumber "\u3000+007\n" 7 := (readNumber_eq_some_iff _ _).1 (by decide)
  have henable : DenotesNumber "18446744073709551615" 18446744073709551615 :=
    (readNumber_eq_some_iff _ _).1 (by decide)
  have hmax : DenotesNumber " \t0001" 1 := (readNumber_eq_some_iff _ _).1 (by decide)
  have hrenders : tunedEnvironment.Renders tunedConfig :=
    ⟨rfl, ⟨_, rfl, hgenesis⟩, ⟨_, rfl, henable⟩, ⟨_, rfl, hmax⟩, rfl⟩
  exact ⟨hvalid, hrenders, (config_eq_iff _).2.2 _ hvalid hrenders⟩

end SecondFactor.Environment
