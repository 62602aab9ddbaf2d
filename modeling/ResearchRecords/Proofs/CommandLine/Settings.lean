import ResearchRecords.CommandLine.Invocation
import ResearchRecords.Proofs.Client.Settings
import ResearchRecords.Proofs.CommandLine.Flags
import ResearchRecords.Proofs.Text.Blanks

/-!
Settings from the environment. A command line without flags for settings takes each from its
variable as it stands. Settings that are made of the environment alone leave an empty user or
password out, and read the number of seconds without the blanks around it; apart from that they are
the same, and both fail for the same addresses.
-/
namespace ResearchRecords

open Results

namespace Config

/-- The settings that the variables of an environment give as they stand. -/
def ofVariables (env : Environment) : Config where
  baseUrl := (env.get? urlVariable).getD defaultUrl
  user := env.get? userVariable
  password := env.get? passwordVariable
  timeoutSeconds := (env.get? timeoutVariable).bind Text.natural64?

/-- The number of seconds is a number as it stands, if it is set. -/
def PlainTimeout (env : Environment) : Prop :=
  ∀ text, env.get? timeoutVariable = some text → (Text.natural64? text).isSome = true

/-- The settings without an empty user or password. -/
def withoutEmpty (config : Config) : Config :=
  { config with user := nonEmpty config.user, password := nonEmpty config.password }

theorem timeoutOf_eq {env : Environment} (h : PlainTimeout env) :
    timeoutOf env = .ok (ofVariables env).timeoutSeconds := by
  unfold timeoutOf ofVariables
  cases htext : env.get? timeoutVariable with
  | none => rfl
  | some text =>
    have hplain := h text htext
    obtain ⟨seconds, hseconds⟩ := Option.isSome_iff_exists.mp hplain
    simp only [Text.trim_of_natural64? hplain, hseconds, Option.bind_some]

theorem url_withoutEmpty (config : Config) : config.withoutEmpty.url = config.url := rfl

theorem ofEnvironment_eq_ok_iff {env : Environment} (h : PlainTimeout env) (config : Config) :
    ofEnvironment env = .ok config ↔
      (∃ url, (ofVariables env).url = .ok url) ∧ (ofVariables env).withoutEmpty = config := by
  rw [ofEnvironment, timeoutOf_eq h]
  change ((ofVariables env).withoutEmpty.validate >>= fun _ =>
    pure (ofVariables env).withoutEmpty) = .ok config ↔ _
  rw [bind_eq_ok, ← url_withoutEmpty, ← validate_eq_ok_iff]
  constructor
  · rintro ⟨_, hvalid, hconfig⟩
    exact ⟨hvalid, (pure_eq_ok ..).mp hconfig⟩
  · rintro ⟨hvalid, hconfig⟩
    exact ⟨(), hvalid, (pure_eq_ok ..).mpr hconfig⟩

theorem ofEnvironment_eq_error_iff {env : Environment} (h : PlainTimeout env) (fault : Fault) :
    ofEnvironment env = .error fault ↔ (ofVariables env).url = .error fault := by
  rw [ofEnvironment, timeoutOf_eq h]
  change ((ofVariables env).withoutEmpty.validate >>= fun _ =>
    pure (ofVariables env).withoutEmpty) = .error fault ↔ _
  simp only [bind_eq_error, pure_ne_error, and_false, exists_false, or_false,
    validate_eq_error_iff, url_withoutEmpty]

theorem nonEmpty_eq_self_iff (s : Option String) : nonEmpty s = s ↔ s ≠ some "" := by
  cases s with
  | none => simp [nonEmpty]
  | some s => simp [nonEmpty, Option.filter_eq_some_iff]

theorem nonEmpty_eq_none_iff (s : Option String) : nonEmpty s = none ↔ s = none ∨ s = some "" := by
  cases s with
  | none => simp [nonEmpty]
  | some s => simp [nonEmpty]

theorem withoutEmpty_eq_self_iff (config : Config) :
    config.withoutEmpty = config ↔ config.user ≠ some "" ∧ config.password ≠ some "" := by
  rw [← nonEmpty_eq_self_iff, ← nonEmpty_eq_self_iff]
  constructor
  · intro h
    exact ⟨congrArg user h, congrArg password h⟩
  · rintro ⟨huser, hpassword⟩
    rw [withoutEmpty, huser, hpassword]

end Config

namespace Client

theorem authorizationOf_eq_none_iff (config : Config) :
    authorizationOf config = none ↔ config.user = none ∨ config.password = none := by
  rw [← Option.not_isSome_iff_eq_none, isSome_authorizationOf, not_and_or,
    Option.not_isSome_iff_eq_none, Option.not_isSome_iff_eq_none]

/-- Without an empty user or password the authorization is another exactly if there was one with
an empty user or password. -/
theorem authorizationOf_withoutEmpty_iff (config : Config) :
    authorizationOf config = authorizationOf config.withoutEmpty ↔
      (config.user ≠ some "" ∧ config.password ≠ some "") ∨
        config.user = none ∨ config.password = none := by
  have hnone : authorizationOf config.withoutEmpty = none ↔
      (config.user = none ∨ config.user = some "") ∨
        (config.password = none ∨ config.password = some "") := by
    rw [authorizationOf_eq_none_iff, ← Config.nonEmpty_eq_none_iff, ← Config.nonEmpty_eq_none_iff]
    rfl
  constructor
  · intro heq
    by_contra hnot
    obtain ⟨hempty, hset⟩ := not_or.mp hnot
    have hempty : config.user = some "" ∨ config.password = some "" := by
      simpa only [not_and_or, not_not] using hempty
    have hunset := heq.trans (hnone.mpr (hempty.imp .inr .inr))
    exact hset ((authorizationOf_eq_none_iff config).mp hunset)
  · rintro (hfull | hunset)
    · rw [config.withoutEmpty_eq_self_iff.mpr hfull]
    · rw [(authorizationOf_eq_none_iff config).mpr hunset, hnone.mpr (hunset.imp .inl .inl)]

end Client

namespace CommandLine

/-- The flags for settings. -/
def Flag.settings : List Flag := [url, user, password, timeout]

/-- No argument spells the flag of a setting. -/
def LeavesSettings (args : List String) : Prop :=
  ∀ arg ∈ flagged args, ∀ flag ∈ Flag.settings, spells arg flag = false

instance (args : List String) : Decidable (LeavesSettings args) :=
  inferInstanceAs (Decidable (∀ arg ∈ flagged args, ∀ flag ∈ Flag.settings,
    spells arg flag = false))

theorem LeavesSettings.spellOnly {args : List String} (h : LeavesSettings args) :
    SpellOnly (· ∉ Flag.settings) args := by
  intro arg harg flag hspells hflag
  exact absurd hspells (by simpa using h arg harg flag hflag)

variable {env : Environment} {args : List String} {invocation : Invocation}

theorem checkEnvironment_eq_ok_iff {r : Reading} (hr : r.Within (· ∉ Flag.settings)) :
    checkEnvironment env r = .ok () ↔ Config.PlainTimeout env := by
  have hhas : r.has .timeout = false := hr.has_eq_false (by decide)
  unfold checkEnvironment Config.PlainTimeout
  cases env.get? Config.timeoutVariable with
  | none => simp
  | some text => simp [hhas, Flag.admits, Flag.isNumeric, Option.isSome_iff_ne_none]

/-- A reading without flags for settings is finished if the number of seconds in the environment is
one. -/
theorem finish_eq_ok_iff {r next : Reading} (hr : r.Within (· ∉ Flag.settings)) :
    finish env r = .ok next ↔ Config.PlainTimeout env ∧ r.resolve = .ok next := by
  rw [finish, bind_eq_ok]
  constructor
  · rintro ⟨resolved, hresolved, h⟩
    obtain ⟨_, hcheck, h⟩ := (bind_eq_ok ..).mp h
    obtain rfl := (pure_eq_ok ..).mp h
    exact ⟨(checkEnvironment_eq_ok_iff (hr.resolve hresolved)).mp hcheck, hresolved⟩
  · rintro ⟨hplain, hresolved⟩
    refine ⟨next, hresolved, (bind_eq_ok ..).mpr ⟨(), ?_, (pure_eq_ok ..).mpr rfl⟩⟩
    exact (checkEnvironment_eq_ok_iff (hr.resolve hresolved)).mpr hplain

/-- Readings without flags for settings leave all settings to the variables. -/
theorem configOf_eq {root own : Reading} (hroot : root.Within (· ∉ Flag.settings))
    (hown : own.Within (· ∉ Flag.settings)) : configOf env root own = Config.ofVariables env := by
  have hsetting : ∀ flag ∈ Flag.settings, ∀ name,
      setting? env root own flag name = env.get? name := by
    intro flag hflag name
    rw [setting?, hown.value?_eq_none (not_not.mpr hflag),
      hroot.value?_eq_none (not_not.mpr hflag)]
    rfl
  rw [configOf, hsetting .url (by decide), hsetting .user (by decide),
    hsetting .password (by decide), hsetting .timeout (by decide)]
  rfl

/-- What the arguments behind a command ask for, apart from the settings. -/
def AsksBehind (root : Reading) (scope : Scope) (args : List String) (command : Command)
    (verbose : Bool) : Prop :=
  ∃ own next finishedOwn finishedRoot, Reading.start.read scope args = .ok (own, next) ∧
    own.resolve = .ok finishedOwn ∧ commandOf scope finishedOwn = .ok command ∧
    root.resolve = .ok finishedRoot ∧
    (finishedRoot.has .verbose || finishedOwn.has .verbose) = verbose

/-- What arguments ask for, apart from the settings. -/
def Asks (args : List String) (command : Command) (verbose : Bool) : Prop :=
  ∃ root name rest scope, Reading.start.read .root args = .ok (root, some (name, rest)) ∧
    Scope.ofName? name = some scope ∧ AsksBehind root scope rest command verbose

theorem readCommand_eq_ok_iff {root : Reading} {scope : Scope}
    (hroot : root.Within (· ∉ Flag.settings)) (hargs : SpellOnly (· ∉ Flag.settings) args) :
    readCommand env root scope args = .ok invocation ↔
      Config.PlainTimeout env ∧ invocation.config = Config.ofVariables env ∧
        AsksBehind root scope args invocation.command invocation.verbose := by
  constructor
  · intro h
    obtain ⟨⟨own, next⟩, hread, h⟩ := (bind_eq_ok ..).mp h
    obtain ⟨finishedOwn, hfinishedOwn, h⟩ := (bind_eq_ok ..).mp h
    obtain ⟨command, hcommand, h⟩ := (bind_eq_ok ..).mp h
    obtain ⟨finishedRoot, hfinishedRoot, h⟩ := (bind_eq_ok ..).mp h
    obtain rfl := (pure_eq_ok ..).mp h
    obtain ⟨hown, _⟩ := Reading.within_start.read (.inr hargs) hread
    obtain ⟨hplain, hresolvedOwn⟩ := (finish_eq_ok_iff hown).mp hfinishedOwn
    obtain ⟨_, hresolvedRoot⟩ := (finish_eq_ok_iff hroot).mp hfinishedRoot
    exact ⟨hplain, configOf_eq (hroot.resolve hresolvedRoot) (hown.resolve hresolvedOwn), own, next,
      finishedOwn, finishedRoot, hread, hresolvedOwn, hcommand, hresolvedRoot, rfl⟩
  · rintro ⟨hplain, hconfig, own, next, finishedOwn, finishedRoot, hread, hresolvedOwn, hcommand,
      hresolvedRoot, hverbose⟩
    obtain ⟨hown, _⟩ := Reading.within_start.read (.inr hargs) hread
    have hfinishedOwn := (finish_eq_ok_iff hown).mpr ⟨hplain, hresolvedOwn⟩
    have hfinishedRoot := (finish_eq_ok_iff hroot).mpr ⟨hplain, hresolvedRoot⟩
    refine (bind_eq_ok ..).mpr ⟨_, hread, (bind_eq_ok ..).mpr ⟨_, hfinishedOwn, ?_⟩⟩
    refine (bind_eq_ok ..).mpr ⟨_, hcommand, (bind_eq_ok ..).mpr ⟨_, hfinishedRoot, ?_⟩⟩
    rw [pure_eq_ok, configOf_eq (hroot.resolve hresolvedRoot) (hown.resolve hresolvedOwn),
      hverbose, ← hconfig]

theorem refuseRoot_ne_ok (root : Reading) : refuseRoot env root ≠ .ok invocation := by
  intro h
  obtain ⟨_, _, h⟩ := (bind_eq_ok ..).mp h
  split at h <;> cases h

theorem refuseHelp_ne_ok (args : List String) : refuseHelp args ≠ .ok invocation := by
  intro h
  unfold refuseHelp at h
  split at h <;> cases h

theorem parse_eq_ok_iff_asks (hflags : LeavesSettings args) : parse env args = .ok invocation ↔
    Config.PlainTimeout env ∧ invocation.config = Config.ofVariables env ∧
      Asks args invocation.command invocation.verbose := by
  constructor
  · intro h
    obtain ⟨⟨root, command⟩, hread, h⟩ := (bind_eq_ok ..).mp h
    obtain ⟨hroot, hrest⟩ := Reading.within_start.read (.inr hflags.spellOnly) hread
    cases command with
    | none => exact absurd h (refuseRoot_ne_ok root)
    | some command =>
      obtain ⟨name, rest⟩ := command
      dsimp only at h
      cases hscope : Scope.ofName? name with
      | none => exact absurd (hscope ▸ h) (refuseHelp_ne_ok rest)
      | some scope =>
        rw [hscope] at h
        obtain ⟨hplain, hconfig, hasks⟩ :=
          (readCommand_eq_ok_iff hroot (hrest name rest rfl)).mp h
        exact ⟨hplain, hconfig, root, name, rest, scope, hread, hscope, hasks⟩
  · rintro ⟨hplain, hconfig, root, name, rest, scope, hread, hscope, hasks⟩
    obtain ⟨hroot, hrest⟩ := Reading.within_start.read (.inr hflags.spellOnly) hread
    refine (bind_eq_ok ..).mpr ⟨_, hread, ?_⟩
    dsimp only
    rw [hscope]
    exact (readCommand_eq_ok_iff hroot (hrest name rest rfl)).mpr ⟨hplain, hconfig, hasks⟩

/-- A command line without flags for settings is read if it is read where no variable is set, and
the number of seconds is one as it stands; and its settings are the variables. -/
theorem parse_eq_ok_iff (hflags : LeavesSettings args) : parse env args = .ok invocation ↔
    Config.PlainTimeout env ∧ invocation.config = Config.ofVariables env ∧
      parse Environment.empty args =
        .ok { invocation with config := Config.ofVariables Environment.empty } := by
  have hempty : Config.PlainTimeout Environment.empty := by
    intro text htext
    cases htext
  rw [parse_eq_ok_iff_asks hflags, parse_eq_ok_iff_asks hflags]
  simp only [hempty, true_and]

/-- Take a command line without flags for settings that is read. If the environment alone gives
settings, they are those of the command line without an empty user or password. So they are the same
exactly if no variable of the two is set to nothing; clients of both send the same requests up to
the authorization of the client, which is the same exactly if no variable is set to nothing or one
of the two is not set. If the environment alone gives no settings, the command line gives no client
for the same reason. -/
theorem settings_agree_iff (hflags : LeavesSettings args)
    (hparse : parse env args = .ok invocation) :
    (∀ config, Config.ofEnvironment env = .ok config →
      config = invocation.config.withoutEmpty ∧
      (invocation.config = config ↔
        env.get? Config.userVariable ≠ some "" ∧ env.get? Config.passwordVariable ≠ some "") ∧
      ∃ client other, Client.ofConfig invocation.config = .ok client ∧
        Client.ofConfig config = .ok other ∧
        (∀ operation : Operation, operation.request client =
          Client.authorized client.authorization <$> operation.request other) ∧
        (client.authorization = other.authorization ↔
          (env.get? Config.userVariable ≠ some "" ∧ env.get? Config.passwordVariable ≠ some "") ∨
            env.get? Config.userVariable = none ∨ env.get? Config.passwordVariable = none)) ∧
    ∀ fault, Config.ofEnvironment env = .error fault →
      Client.ofConfig invocation.config = .error fault := by
  obtain ⟨hplain, hconfig, _⟩ := (parse_eq_ok_iff hflags).mp hparse
  rw [hconfig]
  constructor
  · intro config hgiven
    obtain ⟨⟨url, hurl⟩, rfl⟩ := (Config.ofEnvironment_eq_ok_iff hplain config).mp hgiven
    refine ⟨rfl, eq_comm.trans (Config.withoutEmpty_eq_self_iff _), ?_⟩
    refine ⟨⟨url.closed, Client.authorizationOf (Config.ofVariables env)⟩,
      ⟨url.closed, Client.authorizationOf (Config.ofVariables env).withoutEmpty⟩,
      (Client.ofConfig_eq_ok_iff ..).mpr ⟨url, hurl, rfl⟩,
      (Client.ofConfig_eq_ok_iff ..).mpr ⟨url, hurl, rfl⟩, ?_, ?_⟩
    · exact Client.request_eq_authorized rfl
    · exact Client.authorizationOf_withoutEmpty_iff (Config.ofVariables env)
  · intro fault hfails
    exact (Client.ofConfig_eq_error_iff ..).mpr
      ((Config.ofEnvironment_eq_error_iff hplain fault).mp hfails)

/-- Variables for all settings, the number of seconds with a sign. -/
def backendVariables : Environment :=
  ⟨[(Config.urlVariable, "http://127.0.0.1/api"), (Config.userVariable, "backend"),
    (Config.passwordVariable, "moo"), (Config.timeoutVariable, "+30")]⟩

/-- An address that cannot be used. -/
def mailVariables : Environment := ⟨[(Config.urlVariable, "mailto:backend")]⟩

/-- A flag behind two dashes is no flag. -/
def dashedArguments : List String := ["-v", "get", "--", "grant", "--url"]

theorem settings_agree_iff_dashed :
    LeavesSettings dashedArguments ∧
      (∃ invocation config, parse backendVariables dashedArguments = .ok invocation ∧
        Config.ofEnvironment backendVariables = .ok config ∧ invocation.config = config ∧
        ∃ client other, Client.ofConfig invocation.config = .ok client ∧
          Client.ofConfig config = .ok other ∧ client.authorization = other.authorization) ∧
      ∃ invocation fault, parse mailVariables dashedArguments = .ok invocation ∧
        Config.ofEnvironment mailVariables = .error fault ∧
        Client.ofConfig invocation.config = .error fault := by
  have hflags : LeavesSettings dashedArguments := by decide
  refine ⟨hflags, ?_, ?_⟩
  · have hparse : parse backendVariables dashedArguments = .ok ⟨.get "grant" "--url" [], true,
        ⟨"http://127.0.0.1/api", some "backend", some "moo", some 30⟩⟩ := by decide +kernel
    have hgiven : Config.ofEnvironment backendVariables =
        .ok ⟨"http://127.0.0.1/api", some "backend", some "moo", some 30⟩ := by decide +kernel
    have hfull : backendVariables.get? Config.userVariable ≠ some "" ∧
        backendVariables.get? Config.passwordVariable ≠ some "" := by decide
    obtain ⟨_, hsame, client, other, hclient, hother, _, hauthorization⟩ :=
      (settings_agree_iff hflags hparse).1 _ hgiven
    exact ⟨_, _, hparse, hgiven, hsame.mpr hfull, client, other, hclient, hother,
      hauthorization.mpr (.inl hfull)⟩
  · have hparse : parse mailVariables dashedArguments = .ok ⟨.get "grant" "--url" [], true,
        ⟨"mailto:backend", none, none, none⟩⟩ := by decide +kernel
    have hfails : Config.ofEnvironment mailVariables =
        .error (.address "mailto:backend" (.otherScheme "mailto")) := by decide +kernel
    exact ⟨_, _, hparse, hfails, (settings_agree_iff hflags hparse).2 _ hfails⟩

/-- A user that is set to nothing, with a password. -/
def emptyUser : Environment := ⟨[(Config.userVariable, ""), (Config.passwordVariable, "moo")]⟩

/-- The command line sends an authorization that names nobody, where the environment alone has no
credentials. -/
theorem settings_differ_emptyUser :
    LeavesSettings ["get", "grant", "1"] ∧
      ∃ invocation config client other,
        parse emptyUser ["get", "grant", "1"] = .ok invocation ∧
        Config.ofEnvironment emptyUser = .ok config ∧ invocation.config ≠ config ∧
        Client.ofConfig invocation.config = .ok client ∧ Client.ofConfig config = .ok other ∧
        client.authorization = some "Basic Om1vbw==" ∧ other.authorization = none := by
  have hparse : parse emptyUser ["get", "grant", "1"] = .ok ⟨.get "grant" "1" [], false,
      ⟨Config.defaultUrl, some "", some "moo", none⟩⟩ := by decide +kernel
  have hgiven : Config.ofEnvironment emptyUser =
      .ok ⟨Config.defaultUrl, none, some "moo", none⟩ := by decide +kernel
  have hauthorization : Client.authorizationOf ⟨Config.defaultUrl, some "", some "moo", none⟩ =
      some "Basic Om1vbw==" := by decide +kernel
  obtain ⟨url, hurl⟩ : ∃ url, (Config.ofVariables emptyUser).url = .ok url :=
    ((Config.ofEnvironment_eq_ok_iff (by rintro _ ⟨⟩) _).mp hgiven).1
  refine ⟨by decide, _, _, _, _, hparse, hgiven, by decide,
    (Client.ofConfig_eq_ok_iff ..).mpr ⟨url, hurl, rfl⟩,
    (Client.ofConfig_eq_ok_iff ..).mpr ⟨url, hurl, rfl⟩, hauthorization, rfl⟩

end CommandLine

end ResearchRecords
