import ResearchRecords.Client.Basic
import ResearchRecords.Proofs.Results

/-!
Clients of some settings. Settings are accepted if they have a usable address, and those make a
client; all others fail with the fault of their address, since a user and a password never keep a
client from being made.
-/
namespace ResearchRecords

open Results

namespace Config

theorem validate_eq_ok_iff (config : Config) :
    config.validate = .ok () ↔ ∃ url, config.url = .ok url := by
  rw [validate]
  cases config.url with
  | error fault => simp [bind, Except.bind]
  | ok url => simp [bind, Except.bind, pure, Except.pure]

theorem validate_eq_error_iff (config : Config) (fault : Fault) :
    config.validate = .error fault ↔ config.url = .error fault := by
  rw [validate]
  cases config.url with
  | error fault => simp [bind, Except.bind]
  | ok url => simp [bind, Except.bind, pure, Except.pure]

/-- Settings with a usable address have one that is read from their text. -/
theorem parse_of_url {config : Config} {url : Url} (h : config.url = .ok url) :
    Url.parse config.baseUrl = .ok url := by
  unfold Config.url at h
  split at h
  · cases h
  · exact (mapError_eq_ok ..).mp h

theorem credentials_eq_some_iff (config : Config) (user password : String) :
    config.credentials = some (user, password) ↔
      config.user = some user ∧ config.password = some password := by
  unfold credentials
  cases config.user with
  | none => simp
  | some _ => cases config.password <;> simp

end Config

namespace Client

/-- The authorization under some settings. -/
def authorizationOf (config : Config) : Option String :=
  config.credentials.map fun c => basicAuthorization c.1 c.2

theorem ofConfig_eq (config : Config) :
    ofConfig config = config.url.map fun url => ⟨url.closed, authorizationOf config⟩ := by
  have hconnect := connect_eq config
  unfold ofConfig
  cases hurl : config.url with
  | error fault =>
    rw [hurl] at hconnect
    split <;> simp_all [Except.mapError, Except.map]
  | ok url =>
    rw [hurl] at hconnect
    split <;> simp_all [Except.mapError, Except.map, authorizationOf]

theorem ofConfig_eq_ok_iff (config : Config) (client : Client) : ofConfig config = .ok client ↔
    ∃ url, config.url = .ok url ∧ (⟨url.closed, authorizationOf config⟩ : Client) = client := by
  rw [ofConfig_eq]
  cases config.url <;> simp [Except.map]

theorem ofConfig_eq_error_iff (config : Config) (fault : Config.Fault) :
    ofConfig config = .error fault ↔ config.url = .error fault := by
  rw [ofConfig_eq]
  cases config.url <;> simp [Except.map]

theorem isSome_authorizationOf (config : Config) :
    (authorizationOf config).isSome = true ↔
      config.user.isSome = true ∧ config.password.isSome = true := by
  rw [authorizationOf, Config.credentials]
  cases config.user with
  | none => simp
  | some _ => cases config.password <;> simp

end Client

end ResearchRecords
