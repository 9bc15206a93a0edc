import StubGen.Command.Setup
import StubGen.Proofs.Config.Address
import StubGen.Proofs.Config.Storing

/-!
# What setting up stores, the next run accepts

Setting up checks what the user gives, stores the settings with it, and generates the package. The
checks change nothing (`checkSettings_cases`), and the second check of the address passes where the
first one has, since the slashes at the end do not matter. What has been stored is loaded by the
next run and holds credentials, and where nothing has come to be stored, nothing has changed:
`setup_stores`.
-/

namespace StubGen

/-! ## Steps of a command -/

namespace Action

variable {α : Type} {session after : Session} {a : α}

theorem run_within (context : String) (step : Action α) (session : Session) :
    Action.within context step session =
      ((step session).1.mapError fun failure => failure.within context, (step session).2) := rfl

theorem run_within_eq_ok {context : String} {step : Action α}
    (h : Action.within context step session = (.ok a, after)) :
    step session = (.ok a, after) := by
  rw [run_within] at h
  obtain ⟨hresult, hafter⟩ := Prod.mk.inj h
  exact Prod.ext (Result.mapError_eq_ok_iff.mp hresult) hafter

theorem run_onDisk_eq_ok {step : ExceptT Error (StateM Disk) α}
    (h : Action.onDisk step session = (.ok a, after)) :
    step session.disk = (.ok a, after.disk) := by
  have hrun : Action.onDisk step session =
      Action.ofExcept (step session.disk).1 { session with disk := (step session.disk).2 } := rfl
  rw [hrun] at h
  cases hstep : step session.disk with
  | mk result disk =>
      rw [hstep] at h
      cases result with
      | error e => exact nomatch (Prod.mk.inj h).1
      | ok b =>
          obtain ⟨hresult, rfl⟩ := Prod.mk.inj h
          rw [Except.ok.inj hresult]

end Action

namespace Command

open Address (trimSlashes)

variable {config : Config} {context : ConfigContext} {key url : String} {skips : Bool}
  {session : Session}

/-! ## What stands in front of storing -/

/-- Checks what the user gives, for the settings with it. -/
def checkSettings (config : Config) (args : SetupArguments) : Action Config := do
  let url ← chosenUrl config args
  let key ← chosenKey args
  let config := withCredentials config url key
  Action.within "invalid configuration" (Action.ofExcept config.validate)
  return config

/-- Stores settings. -/
def saveSettings (context : ConfigContext) (config : Config) : Action Config := do
  Action.within "failed to save configuration"
    (Action.onDisk (ConfigContext.save { context with config := config }))
  return config

theorem storeSettings_eq (context : ConfigContext) (args : SetupArguments) :
    storeSettings context args =
      checkSettings context.config args >>= saveSettings context := by
  simp [storeSettings, checkSettings, saveSettings]

/-- Credentials that can be stored with some settings. -/
structure Fit (config : Config) (url key : String) : Prop where
  accepts : config.accepts url = true
  key : Text.isBlankText key = false
  package : Config.isPackageName config.packageName = true

/-- Without slashes at its end an address is still accepted, so that settings with it are valid if
their package name is. -/
theorem validate_withCredentials (haccepts : config.accepts url = true) :
    (withCredentials config url key).validate = .ok () ↔
      Config.isPackageName config.packageName = true := by
  have htrim : config.accepts (trimSlashes url) = true :=
    Address.isAccepted_trimSlashes haccepts
  rw [Config.validate_eq_ok_iff]
  exact ⟨And.right, fun hpackage => ⟨fun given hgiven => Option.some.inj hgiven ▸ htrim, hpackage⟩⟩

theorem run_chosenUrl (config : Config) (apiKey : Option String) (url : String) (skips : Bool)
    (session : Session) :
    chosenUrl config ⟨apiKey, some url, skips⟩ session =
      (if config.accepts url then .ok url
        else .error (.because ("'" ++ url ++ "' is not a valid Poly API base URL")), session) := by
  simp only [chosenUrl]
  split <;> rfl

theorem run_chosenKey (key : String) (baseUrl : Option String) (skips : Bool) (session : Session) :
    chosenKey ⟨some key, baseUrl, skips⟩ session =
      (if Text.isBlankText key then .error (.because "API key cannot be empty") else .ok key,
        session) := by
  simp only [chosenKey]
  split <;> rfl

/-- The checks succeed for credentials that fit, and change nothing however they end. -/
theorem checkSettings_cases (config : Config) (key url : String) (skips : Bool)
    (session : Session) :
    (Fit config url key ∧ checkSettings config ⟨some key, some url, skips⟩ session =
      (.ok (withCredentials config url key), session)) ∨
    (¬ Fit config url key ∧ ∃ failure,
      checkSettings config ⟨some key, some url, skips⟩ session = (.error failure, session)) := by
  rw [checkSettings, Result.run_bind, run_chosenUrl]
  -- the checks come in this order: the address, the key, and the settings with both
  by_cases haccepts : config.accepts url = true
  · rw [if_pos haccepts]
    dsimp only
    rw [Result.run_bind, run_chosenKey]
    by_cases hkey : Text.isBlankText key = true
    · rw [if_pos hkey]
      exact .inr ⟨fun hfit => Bool.noConfusion (hfit.key.symm.trans hkey), _, rfl⟩
    · rw [if_neg hkey]
      dsimp only
      rw [Result.run_bind, Action.run_within]
      cases hvalid : (withCredentials config url key).validate with
      | error e =>
          refine .inr ⟨fun hfit => ?_, _, rfl⟩
          rw [(validate_withCredentials haccepts).mpr hfit.package] at hvalid
          exact nomatch hvalid
      | ok _ =>
          have hpackage := (validate_withCredentials haccepts).mp hvalid
          exact .inl ⟨⟨haccepts, Bool.eq_false_iff.mpr hkey, hpackage⟩, rfl⟩
  · rw [if_neg haccepts]
    exact .inr ⟨fun hfit => haccepts hfit.accepts, _, rfl⟩

/-! ## What has been stored -/

/-- Settings with credentials that fit hold these credentials. -/
theorem credentials_withCredentials (hfit : Fit config url key) :
    (withCredentials config url key).credentials = .ok ⟨key, trimSlashes url⟩ := by
  have hvalid : (withCredentials config url key).validate = .ok () :=
    (validate_withCredentials hfit.accepts).mpr hfit.package
  have htrim := Address.trimSlashes_trimSlashes url
  simp only [Config.credentials, hvalid, Result.ok_bind]
  simp [withCredentials, htrim]

theorem saveSettings_eq_ok {after : Session} {saved : Config}
    (h : saveSettings context config session = (.ok saved, after)) :
    saved = config ∧
      ConfigContext.save { context with config := config } session.disk = (.ok (), after.disk) := by
  obtain ⟨_, between, hsave, hreturn⟩ := Result.run_bind_eq_ok h
  obtain ⟨rfl, rfl⟩ := Result.run_pure_eq_ok hreturn
  exact ⟨rfl, Action.run_onDisk_eq_ok (Action.run_within_eq_ok hsave)⟩

/-- **What setting up stores, the next run accepts.** Where the address, the key and the name of the
package fit, setting up comes to storing the settings; else it fails and changes nothing. The
settings that have been stored are those in force with the key and with the address without slashes
at its end, they are the ones that are loaded where no environment variables are set, and they hold
credentials. -/
theorem setup_stores (context : ConfigContext) (key url : String) (skips : Bool)
    (session : Session) :
    (Fit context.config url key →
      storeSettings context ⟨some key, some url, skips⟩ session =
        saveSettings context (withCredentials context.config url key) session) ∧
    (¬ Fit context.config url key → ∃ failure, ∀ environment,
      setup environment context ⟨some key, some url, skips⟩ session = (.error failure, session)) ∧
    ∀ config after,
      storeSettings context ⟨some key, some url, skips⟩ session = (.ok config, after) →
        config = withCredentials context.config url key ∧
        ConfigContext.load context.path (fun _ => none) after.disk = .ok ⟨context.path, config⟩ ∧
        config.credentials = .ok ⟨key, trimSlashes url⟩ ∧
        ∀ environment, setup environment context ⟨some key, some url, skips⟩ session =
          if skips then (.ok .success, after)
          else generate environment config .everything after := by
  rcases checkSettings_cases context.config key url skips session with
    ⟨hfit, hchecked⟩ | ⟨hunfit, failure, hfailed⟩
  · have hsaves : storeSettings context ⟨some key, some url, skips⟩ session =
        saveSettings context (withCredentials context.config url key) session := by
      rw [storeSettings_eq, Result.run_bind, hchecked]
    refine ⟨fun _ => hsaves, fun hunfit => absurd hfit hunfit, fun config after hstored => ?_⟩
    obtain ⟨rfl, hsave⟩ := saveSettings_eq_ok (hsaves.symm.trans hstored)
    refine ⟨rfl, ConfigContext.load_of_save hsave _, credentials_withCredentials hfit,
      fun environment => ?_⟩
    rw [setup, Result.run_bind, hstored]
    cases skips <;> rfl
  · have hstops : storeSettings context ⟨some key, some url, skips⟩ session =
        (.error failure, session) := by
      rw [storeSettings_eq, Result.run_bind, hfailed]
    refine ⟨fun hfit => absurd hfit hunfit, fun _ => ⟨failure, fun environment => ?_⟩,
      fun config after hstored => ?_⟩
    · rw [setup, Result.run_bind, hstops]
    · exact nomatch (Prod.mk.inj (hstops.symm.trans hstored)).1

/-- A host of one's own is stored without the slashes behind its path; a blank key is not stored. -/
theorem setup_stores_custom_host : ∃ (context : ConfigContext) (session after : Session),
    storeSettings context ⟨some "it's a \"key\"", some "https://example.com/api//", true⟩ session =
      (.ok ⟨some "it's a \"key\"", some "https://example.com/api", "~/my\nlib", "poly_lib",
        some ["engine", "--strict"], true⟩, after) ∧
    ConfigContext.load (some "/home/polygen/config.toml") (fun _ => none) after.disk =
      .ok ⟨some "/home/polygen/config.toml", ⟨some "it's a \"key\"",
        some "https://example.com/api", "~/my\nlib", "poly_lib", some ["engine", "--strict"],
        true⟩⟩ ∧
    (∃ failure, ∀ environment,
      setup environment context ⟨some " ", some "https://example.com/api//", true⟩ session =
        (.error failure, session)) := by
  let context : ConfigContext := ⟨some "/home/polygen/config.toml",
    ⟨none, some "http://localhost:8000", "~/my\nlib", "poly_lib", some ["engine", "--strict"],
      true⟩⟩
  let session : Session := ⟨⟨⟨[(["home"], .directory)]⟩, [], none, []⟩, .absent, ""⟩
  have hrun : (storeSettings context ⟨some "it's a \"key\"", some "https://example.com/api//", true⟩
      session).1.toBool = true := by decide +kernel
  obtain ⟨config, after, hstored⟩ := Result.run_of_toBool hrun
  obtain ⟨-, -, hkept⟩ :=
    setup_stores context "it's a \"key\"" "https://example.com/api//" true session
  obtain ⟨rfl, hload, -, -⟩ := hkept config after hstored
  have hblank : ¬ Fit context.config "https://example.com/api//" " " := fun hfit =>
    absurd hfit.key (by decide)
  obtain ⟨-, hfails, -⟩ := setup_stores context " " "https://example.com/api//" true session
  have hconfig : withCredentials context.config "https://example.com/api//" "it's a \"key\"" =
      ⟨some "it's a \"key\"", some "https://example.com/api", "~/my\nlib", "poly_lib",
        some ["engine", "--strict"], true⟩ := by decide +kernel
  rw [hconfig] at hstored hload
  exact ⟨context, session, after, hstored, hload, hfails hblank⟩

end Command

end StubGen
