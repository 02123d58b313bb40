import Camlistore.Camlistored

/-! # camlistored across SIGHUP restarts

Once it listens, `main` starts `handleSignals` (src/unnamed/part_001).  That asks
`signal.Notify` to relay SIGHUP to its channel, and on each signal it receives calls
`osutil.RestartProcess`, which executes the same binary again with the same arguments; when that
fails the process ends with `log.Fatal`.  A life of the process is so a sequence of starts, each
`main` with the same flags in the world it meets, each but the first entered from a start that
serves.  `osutil.RestartProcess` answers as an oracle: its error, or none once it has executed
the process again.  A signal `signal.Notify` does not relay takes the Go runtime's default action,
outside the source, so a life is told by what `handleSignals` receives.

The results, over every life:
* `camlistored_restarts_rewrite_only_self_signed_credentials`: in a world that keeps the files a
  start wrote, a later start writes over none of them but the self-signed certificate and key,
  so the identity key ring and the default config are written once.
* `camlistored_restarts_reopen_browser`: with no `-configfile`, every start that serves opens a
  browser window, so every restart opens one more.
-/

set_option autoImplicit false

namespace Camlistore.Camlistored

/-- An `os.Signal`: a `syscall.Signal` by its number, or a signal of another kind. -/
inductive Signal
  | unix (number : Nat)
  | other (name : String)
  deriving DecidableEq, Repr

def SIGHUP : Nat := 1

def Notify (sigs : List Signal) (sig : Signal) : Bool := sigs.contains sig

inductive Handled
  | restart
  | fatal (message : String)
  deriving DecidableEq, Repr

def handleSignal (RestartProcess : Option String) : Signal → Handled
  | .other _ => .fatal "Not a unix signal"
  | .unix sysSig =>
    if sysSig = SIGHUP then
      match RestartProcess with
      | some err => .fatal ("Failed to restart: " ++ err)
      | none => .restart
    else .fatal "Received another signal, should not happen."

/-- A signal `handleSignals` receives, one `signal.Notify(c, syscall.SIGHUP)` relays, with what
`osutil.RestartProcess` returns and the world the process executed again meets. -/
structure Received where
  sig : Signal
  relayed : Notify [.unix SIGHUP] sig = true
  RestartProcess : Option String
  env : Env

inductive Ending
  | exit (exit : Exit)
  | fatal (message : String)
  | serving
  deriving Repr

/-- The worlds of the starts of a life from `env`, and how it ends: each received signal runs
`main` again with the same flags, or ends the process. -/
def life (flags : Flags) (env : Env) (received : List Received) : List Env × Ending :=
  match (main env flags).2, received with
  | .error exit, _ => ([env], .exit exit)
  | .ok _, [] => ([env], .serving)
  | .ok _, r :: rest =>
    match handleSignal r.RestartProcess r.sig with
    | .fatal message => ([env], .fatal message)
    | .restart => (env :: (life flags r.env rest).1, (life flags r.env rest).2)

def lifeEffects (flags : Flags) (starts : List Env) : List Effect :=
  starts.flatMap fun env => (main env flags).1

def Effect.opened : Effect → Option String
  | .OpenURL url => some url
  | _ => none

/-- The world keeps what a start wrote: each file that a start which served wrote (each of its
writes then succeeded) is there at every later start of the life. -/
def Keeps (flags : Flags) (starts : List Env) : Prop :=
  ∀ earlier later, starts = earlier ++ later → ∀ env ∈ earlier, (main env flags).2.isOk →
    ∀ path contents, .Write path contents ∈ (main env flags).1 →
      ∀ env' ∈ later, env'.Stat path = none

/-! ## What a turn of `handleSignals` and a life can do -/

/-- `signal.Notify(c, syscall.SIGHUP)` relays nothing but SIGHUP, so a turn of `handleSignals`
restarts the process or fails to. -/
theorem handleSignal_relayed (r : Received) :
    r.RestartProcess = none ∧ handleSignal r.RestartProcess r.sig = .restart ∨
      ∃ err, r.RestartProcess = some err ∧
        handleSignal r.RestartProcess r.sig = .fatal ("Failed to restart: " ++ err) := by
  obtain ⟨sig, relayed, restart, env⟩ := r
  obtain rfl : sig = .unix SIGHUP := by simpa [Notify] using relayed
  cases restart <;> simp [handleSignal]

theorem life_cases (flags : Flags) (env : Env) (received : List Received) :
    (∃ exit, (main env flags).2 = .error exit ∧ life flags env received = ([env], .exit exit)) ∨
    (main env flags).2.isOk ∧
      (received = [] ∧ life flags env received = ([env], .serving) ∨
      (∃ r rest err, received = r :: rest ∧ r.RestartProcess = some err ∧
        life flags env received = ([env], .fatal ("Failed to restart: " ++ err))) ∨
      ∃ r rest, received = r :: rest ∧
        life flags env received =
          (env :: (life flags r.env rest).1, (life flags r.env rest).2)) := by
  rcases started : (main env flags).2 with exit | served
  · exact .inl ⟨exit, rfl, life.eq_1 flags env received exit started⟩
  refine .inr ⟨rfl, ?_⟩
  rcases received with _ | ⟨r, rest⟩
  · exact .inl ⟨rfl, life.eq_2 flags env served started⟩
  rw [life.eq_3 flags env r rest served started]
  rcases handleSignal_relayed r with ⟨-, restarted⟩ | ⟨err, failed, handled⟩
  · exact .inr (.inr ⟨r, rest, rfl, by rw [restarted]⟩)
  · exact .inr (.inl ⟨r, rest, err, rfl, failed, by rw [handled]⟩)

/-- Induction over a life, by how its first start ends. -/
theorem life_induction (flags : Flags) {motive : Env → List Received → Prop}
    (exit : ∀ env received exit, (main env flags).2 = .error exit →
      life flags env received = ([env], .exit exit) → motive env received)
    (serving : ∀ env, (main env flags).2.isOk → life flags env [] = ([env], .serving) →
      motive env [])
    (fatal : ∀ env r rest err, (main env flags).2.isOk → r.RestartProcess = some err →
      life flags env (r :: rest) = ([env], .fatal ("Failed to restart: " ++ err)) →
      motive env (r :: rest))
    (restart : ∀ env r rest, (main env flags).2.isOk →
      life flags env (r :: rest) = (env :: (life flags r.env rest).1, (life flags r.env rest).2) →
      motive r.env rest → motive env (r :: rest))
    (env : Env) (received : List Received) : motive env received := by
  induction received generalizing env with
  | nil =>
    rcases life_cases flags env [] with ⟨_, exited, same⟩ | ⟨served, ⟨-, same⟩ |
        ⟨_, _, _, nil, -⟩ | ⟨_, _, nil, -⟩⟩
    · exact exit env [] _ exited same
    · exact serving env served same
    all_goals cases nil
  | cons r rest ih =>
    rcases life_cases flags env (r :: rest) with ⟨_, exited, same⟩ | ⟨served, ⟨nil, -⟩ |
        ⟨_, _, _, cons, failed, same⟩ | ⟨_, _, cons, same⟩⟩
    · exact exit env _ _ exited same
    · cases nil
    all_goals obtain ⟨rfl, rfl⟩ := List.cons.inj cons
    · exact fatal env _ _ _ served failed same
    · exact restart env _ _ served same (ih _)

theorem life_dropLast (flags : Flags) (env : Env) (received : List Received) :
    ∀ e ∈ (life flags env received).1.dropLast, (main e flags).2.isOk := by
  induction env, received using life_induction flags with
  | exit _ _ _ _ same | serving _ _ same | fatal _ _ _ _ _ _ same => simp [same]
  | restart env r rest served same ih =>
    rcases next : (life flags r.env rest).1 with _ | ⟨first, later⟩
    · simp [same, next]
    · rw [same, next, List.dropLast_cons₂]
      rintro e (_ | ⟨_, mem⟩)
      · exact served
      · exact ih e (next ▸ mem)

/-! ## What a restart writes over -/

/-- A start writes over a file that is there only to make the self-signed certificate or key
again: the key ring and the config are written only where the stat found nothing. -/
theorem main_rewrites (env : Env) (flags : Flags) {path : String} {contents : Contents}
    (written : .Write path contents ∈ (main env flags).1) (present : env.Stat path = none) :
    path = defCert ∧ (∃ hostname, contents = .certificate hostname) ∨
      path = defKey ∧ contents = .privateKey := by
  rcases main_writes env flags written with ⟨-, absentConfig, mem⟩ | ⟨config, listen, -, tls⟩
  · rcases newDefaultConfigFile_effects env _ _ mem with made | ⟨absent, _, made⟩ | ⟨_, made, -⟩
    · cases made
    · rw [← (Effect.Write.inj made).1, present] at absent
      cases absent
    · rw [← (Effect.Write.inj made).1, present] at absentConfig
      cases absentConfig
  · rcases genSelfTLS_effects env listen _ (setupTLS_effects env config listen _ tls).1 with
      ⟨hostname, made⟩ | made <;> obtain ⟨rfl, rfl⟩ := Effect.Write.inj made
    · exact .inl ⟨rfl, hostname, rfl⟩
    · exact .inr ⟨rfl, rfl⟩

/-- In a world that keeps what a start wrote, a restart writes again only the self-signed
certificate and key: never a new key ring or config. -/
theorem camlistored_restarts_rewrite_only_self_signed_credentials (flags : Flags) (env : Env)
    (received : List Received) (keeps : Keeps flags (life flags env received).1)
    {earlier later : List Env} (split : (life flags env received).1 = earlier ++ later)
    {path : String} {contents contents' : Contents}
    (before : ∃ e ∈ earlier, .Write path contents ∈ (main e flags).1)
    (after : ∃ e ∈ later, .Write path contents' ∈ (main e flags).1) :
    path = defCert ∧ (∃ hostname, contents' = .certificate hostname) ∨
      path = defKey ∧ contents' = .privateKey := by
  obtain ⟨e, mem, written⟩ := before
  obtain ⟨e', mem', rewritten⟩ := after
  have served : (main e flags).2.isOk := by
    refine life_dropLast flags env received e ?_
    rw [split, List.dropLast_append_of_ne_nil _ (List.ne_nil_of_mem mem')]
    exact List.mem_append_left _ mem
  exact main_rewrites e' flags rewritten
    (keeps earlier later split e mem served path contents written e' mem')

def restarted : Env := { firstStart with Stat := fun _ => none }

def hupOnce : List Received := [⟨.unix SIGHUP, rfl, none, restarted⟩]

/-- The world of a start with `-configfile` once it has served: its self-signed files are
there. -/
def configuredAgain : Env := { configured with Stat := fun _ => none }

def hupConfigured : List Received := [⟨.unix SIGHUP, rfl, none, configuredAgain⟩]

theorem restart_rewrites_self_signed_certificate :
    Keeps ⟨"serverconfig", ""⟩ (life ⟨"serverconfig", ""⟩ configured hupConfigured).1 ∧
      (defCert = defCert ∧ (∃ hostname, Contents.certificate "" = .certificate hostname) ∨
        defCert = defKey ∧ Contents.certificate "" = .privateKey) :=
  have starts : (life ⟨"serverconfig", ""⟩ configured hupConfigured).1 =
      [configured] ++ [configuredAgain] := rfl
  have keeps :
      Keeps ⟨"serverconfig", ""⟩ (life ⟨"serverconfig", ""⟩ configured hupConfigured).1 := by
    rw [starts]
    rintro earlier later split e mem - path contents - e' mem'
    obtain ⟨first, earlier, rfl⟩ := List.exists_cons_of_ne_nil (List.ne_nil_of_mem mem)
    have rest : [configuredAgain] = earlier ++ later := (List.cons.inj split).2
    have same : e' = configuredAgain := List.mem_singleton.mp (rest ▸ List.mem_append_right _ mem')
    rw [same]
    rfl
  ⟨keeps, camlistored_restarts_rewrite_only_self_signed_credentials ⟨"serverconfig", ""⟩
    configured hupConfigured keeps starts
    ⟨configured, List.mem_singleton_self _, List.getElem?_mem
      (rfl : (main configured ⟨"serverconfig", ""⟩).1[0]? =
        some (.Write defCert (.certificate "")))⟩
    ⟨configuredAgain, List.mem_singleton_self _, List.getElem?_mem
      (rfl : (main configuredAgain ⟨"serverconfig", ""⟩).1[0]? =
        some (.Write defCert (.certificate "")))⟩⟩

/-! ## The browser a restart opens -/

theorem opened_findConfigFile (env : Env) (file : String) :
    (findConfigFile env file).1.filterMap Effect.opened = [] := by
  refine List.filterMap_eq_nil_iff.mpr fun e mem => ?_
  obtain ⟨-, -, mem⟩ := findConfigFile_effects env _ _ mem
  rcases mem with rfl | mem
  · rfl
  · rcases newDefaultConfigFile_effects env _ _ mem with rfl | ⟨-, _, rfl⟩ | ⟨_, rfl, -⟩ <;> rfl

theorem opened_setupTLS (env : Env) (config : Config) (listen : String) :
    (setupTLS env config listen).1.filterMap Effect.opened = [] := by
  refine List.filterMap_eq_nil_iff.mpr fun e mem => ?_
  rcases genSelfTLS_effects env listen _ (setupTLS_effects env config listen _ mem).1 with
    ⟨_, rfl⟩ | rfl <;> rfl

theorem opened_openURLs (env : Env) (UIPath : String) :
    ((openURLs env "" UIPath).filterMap Effect.opened).length = 1 := by
  unfold openURLs
  by_cases windows : UIPath ≠ "" ∧ env.GOOS = "windows" <;> simp [windows, Effect.opened]

theorem opened_main (env : Env) (flags : Flags) (unnamed : flags.configfile = "") :
    ((main env flags).1.filterMap Effect.opened).length =
      if (main env flags).2.isOk then 1 else 0 := by
  rcases main_cases env flags with ⟨exit, same⟩ | ⟨config, listen, exit, -, same⟩ |
      ⟨served, -, -, -, same⟩ <;>
    rw [same] <;> simp only [List.filterMap_append, opened_findConfigFile, opened_setupTLS]
  · rfl
  · rfl
  · rw [unnamed]
    simp only [List.nil_append, opened_openURLs]
    rfl

theorem opened_lifeEffects_cons (flags : Flags) (env : Env) (starts : List Env) :
    ((lifeEffects flags (env :: starts)).filterMap Effect.opened).length =
      ((main env flags).1.filterMap Effect.opened).length +
        ((lifeEffects flags starts).filterMap Effect.opened).length := by
  simp only [lifeEffects, List.flatMap_cons, List.filterMap_append, List.length_append]

/-- Started with no `-configfile`, camlistored opens one browser window per start of its life,
but for a last start that exited. -/
theorem camlistored_restarts_reopen_browser (flags : Flags) (env : Env) (received : List Received)
    (unnamed : flags.configfile = "") :
    ((∀ exit, (life flags env received).2 ≠ .exit exit) →
      ((lifeEffects flags (life flags env received).1).filterMap Effect.opened).length =
        (life flags env received).1.length) ∧
    ∀ exit, (life flags env received).2 = .exit exit →
      ((lifeEffects flags (life flags env received).1).filterMap Effect.opened).length + 1 =
        (life flags env received).1.length := by
  induction env, received using life_induction flags with
  | exit env received exit exited same =>
    rw [same, opened_lifeEffects_cons, opened_main env flags unnamed, exited]
    exact ⟨fun never => absurd rfl (never exit), fun _ _ => rfl⟩
  | serving env served same | fatal env _ _ _ served _ same =>
    rw [same, opened_lifeEffects_cons, opened_main env flags unnamed, if_pos served]
    exact ⟨fun _ => rfl, fun _ ended => by cases ended⟩
  | restart env r rest served same ih =>
    rw [same, opened_lifeEffects_cons, opened_main env flags unnamed, if_pos served,
      List.length_cons]
    exact ⟨fun never => by rw [← ih.1 never]; omega,
      fun exit ended => by rw [← ih.2 exit ended]; omega⟩

theorem restart_reopens_browser :
    (⟨"", ""⟩ : Flags).configfile = "" ∧
      ((∀ exit, (life ⟨"", ""⟩ firstStart hupOnce).2 ≠ .exit exit) →
        ((lifeEffects ⟨"", ""⟩ (life ⟨"", ""⟩ firstStart hupOnce).1).filterMap
          Effect.opened).length = (life ⟨"", ""⟩ firstStart hupOnce).1.length) ∧
      ∀ exit, (life ⟨"", ""⟩ firstStart hupOnce).2 = .exit exit →
        ((lifeEffects ⟨"", ""⟩ (life ⟨"", ""⟩ firstStart hupOnce).1).filterMap
          Effect.opened).length + 1 = (life ⟨"", ""⟩ firstStart hupOnce).1.length :=
  ⟨rfl, camlistored_restarts_reopen_browser ⟨"", ""⟩ firstStart hupOnce rfl⟩

/-- The first start and the one SIGHUP brings each open the server's URL. -/
example : (lifeEffects ⟨"", ""⟩ (life ⟨"", ""⟩ firstStart hupOnce).1).filterMap Effect.opened =
    ["http://localhost:3179", "http://localhost:3179"] := rfl

end Camlistore.Camlistored
