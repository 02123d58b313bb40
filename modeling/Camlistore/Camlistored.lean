import Camlistore.Store

/-! # camlistored's start

`main` of camlistored and what it calls before it serves (src/unnamed/part_001): the config
file it uses or writes on a first start, the listen address, the TLS set-up and the browser it
opens.  What `main` calls outside the source (the operating system, the Go library and
camlistore's `osutil`, `serverconfig`, `jsonsign` and `webserver` packages) answers through an
environment `Env`, and every theorem holds for every environment.  `os.Stat` answers by name, the
same each time a name is asked.  `fmt` stays symbolic: an error built by `fmt.Errorf` and an
`exitf` message are their pattern and their arguments.  `exitf` ends the process: here it ends
the run with its message, and what `main` did before stays in the run.

Left out, as they decide nothing modelled: the log lines, the fields of the self-signed
certificate and the bytes of the key ring, `ws.Serve` and the final `select {}`.
`handleSignals`, which restarts the process on SIGHUP, is in `Camlistore.Restart`. -/

set_option autoImplicit false

namespace Camlistore.Camlistored

inductive Value
  | str (s : String)
  | int (n : Nat)
  | nil
  | PathError (Op Path : String) (Err : Errno)
  | ErrorString (text : String)
  | Errorf (pattern : String) (args : List Value)
  deriving Repr

/-- `os.IsNotExist(err)`: of Go 1's errors, only a `*os.PathError` of `ENOENT` says so. -/
def IsNotExist : Option Value → Bool
  | some (.PathError _ _ err) => err == ENOENT
  | _ => false

def errValue : Option Value → Value
  | none => .nil
  | some err => err

/-- `strings.HasSuffix`, on characters: for valid UTF-8 a suffix of the bytes that is itself
valid UTF-8 is one of the characters. -/
def HasSuffix (s suffix : String) : Bool := suffix.data.isSuffixOf s.data

structure Exit where
  pattern : String
  args : List Value
  deriving Repr

def exitf {α : Type} (pattern : String) (args : List Value) : Except Exit α :=
  .error ⟨if HasSuffix pattern "\n" then pattern else pattern ++ "\n", args⟩

/-- The verbs of a `fmt` pattern, in order: the character after each `%`, where `%%` is a
percent sign. -/
def verbs : List Char → List Char
  | '%' :: '%' :: rest => verbs rest
  | '%' :: verb :: rest => verb :: verbs rest
  | _ :: rest => verbs rest
  | [] => []

/-- `fmt` prints the argument for the verb: `%v` anything, `%s` and `%q` a string or a non-nil
error, `%d` an integer; anything else comes out as a `%!` complaint. -/
def fits : Char → Value → Bool
  | 'v', _ => true
  | 'd', .int _ => true
  | 's', .str _ | 'q', .str _ => true
  | 's', .PathError .. | 'q', .PathError .. => true
  | 's', .ErrorString _ | 'q', .ErrorString _ => true
  | 's', .Errorf .. | 'q', .Errorf .. => true
  | _, _ => false

mutual
/-- Every `fmt.Errorf` inside the value has one argument per verb, each of a kind its verb
prints: `fmt` adds no `%!` complaint to its text. -/
def Value.formatted : Value → Bool
  | .Errorf pattern args => formattedArgs (verbs pattern.data) args
  | _ => true

def formattedArgs : List Char → List Value → Bool
  | [], [] => true
  | verb :: verbs, arg :: args => fits verb arg && arg.formatted && formattedArgs verbs args
  | _, _ => false
end

def Exit.formatted (exit : Exit) : Bool := formattedArgs (verbs exit.pattern.data) exit.args

@[simp] theorem fits_v (arg : Value) : fits 'v' arg = true := by
  cases arg <;> rfl

/-- The fields of `defaultConfigFile`, which `json.MarshalIndent` writes out; marshalling this
struct cannot fail, so its error branch is never taken. -/
structure defaultConfigFile where
  Listen : String
  HTTPS : Bool
  Auth : String
  Identity : String
  IdentitySecretRing : String
  BlobPath : String
  MySQL : String
  Mongo : String
  S3 : String
  ReplicateTo : List Value
  Publish : Unit
  deriving Repr

inductive Contents
  | config (conf : defaultConfigFile)
  | keyRing (keyId : String)
  | certificate (hostname : String)
  | privateKey
  deriving Repr

/-- What `main` does to the world before it serves.  A file is written from the moment the call
that opens it succeeds; `ioutil.WriteFile` may have written it even when it fails. -/
inductive Effect
  | MkdirAll (path : String)
  | Write (path : String) (contents : Contents)
  /-- `osutil.OpenURL(url)`, run in a goroutine. -/
  | OpenURL (url : String)
  deriving Repr

/-- A loaded `*serverconfig.Config`, by what `main` reads of it: the string and bool value of a
key, if it has one of that type. -/
structure Config where
  strings : String → Option String
  bools : String → Option Bool

def Config.OptionalString (config : Config) (key defaultValue : String) : String :=
  (config.strings key).getD defaultValue

def Config.OptionalBool (config : Config) (key : String) (defaultValue : Bool) : Bool :=
  (config.bools key).getD defaultValue

/-- What the code `main` calls outside the source returns.  An error of a package outside the
source is its text. -/
structure Env where
  UserServerConfigPath : String
  CamliConfigDir : String
  CamliBlobRoot : String
  IdentitySecretRing : String
  IsAbs : String → Bool
  Join : String → String → String
  /-- The errno of `os.Stat(name)`; none when the file is there. -/
  Stat : String → Option Errno
  /-- The directory `os.MkdirAll(path)` could not make, the path or an ancestor, and its errno. -/
  MkdirAll : String → Option (String × Errno)
  Open : String → Option Errno
  OpenFile : String → Option Errno
  Create : String → Option Errno
  WriteFile : String → Option Errno
  /-- `openpgp.ReadKeyRing` of the opened file: the short key id of each entity, or its error. -/
  ReadKeyRing : String → Except String (List String)
  NewEntity : Except String String
  WriteKeyRing : Option String
  GenerateKey : Option String
  SplitHostPort : String → Except String String
  CreateCertificate : Option String
  Load : String → Except String Config
  InstallHandlers : String → Except String String
  Listen : String → Option String
  ListenURL : String
  GOOS : String

def Env.statError (env : Env) (name : String) : Option Value :=
  (env.Stat name).map (.PathError "stat" name)

def defCert : String := "config/selfgen_cert.pem"
def defKey : String := "config/selfgen_key.pem"

structure Flags where
  configfile : String
  listen : String

def genSelfTLS (env : Env) (listen : String) : List Effect × Option Value :=
  match env.GenerateKey with
  | some err => ([], some (.Errorf "failed to generate private key: %s" [.ErrorString err]))
  | none =>
    match env.SplitHostPort listen with
    | .error err => ([], some (.Errorf "splitting listen failed: %q" [.ErrorString err]))
    | .ok hostname =>
      match env.CreateCertificate with
      | some err => ([], some (.Errorf "Failed to create certificate: %s" [.ErrorString err]))
      | none =>
        match env.Create defCert with
        | some err => ([], some (.Errorf "failed to open %s for writing: %s"
            [.str defCert, .PathError "open" defCert err]))
        | none =>
          match env.OpenFile defKey with
          | some err => ([.Write defCert (.certificate hostname)],
              some (.Errorf "failed to open %s for writing:"
                [.str defKey, .PathError "open" defKey err]))
          | none => ([.Write defCert (.certificate hostname), .Write defKey .privateKey], none)

def keyIdFromRing (env : Env) (filename : String) : String × Option Value :=
  match env.Open filename with
  | some err => ("", some (.Errorf "reading identity secret ring file: %v"
      [.PathError "open" filename err]))
  | none =>
    match env.ReadKeyRing filename with
    | .error err => ("", some (.Errorf "reading identity secret ring file %s: %v"
        [.str filename, .ErrorString err]))
    | .ok [ent] => (ent, none)
    | .ok el => ("", some (.Errorf "identity secret ring file contained %d identities; expected 1"
        [.int el.length]))

def generateNewSecRing (env : Env) (filename : String) : List Effect × String × Option Value :=
  match env.NewEntity with
  | .error err => ([], "", some (.Errorf "generating new identity: %v" [.ErrorString err]))
  | .ok ent =>
    match env.OpenFile filename with
    | some err => ([], "", some (.PathError "open" filename err))
    | none =>
      match env.WriteKeyRing with
      | some err => ([.Write filename (.keyRing ent)], "",
          some (.Errorf "writing new key ring to %s: %v" [.str filename, .ErrorString err]))
      | none => ([.Write filename (.keyRing ent)], ent, none)

def secretRing (env : Env) (secRing : String) : List Effect × String × Option Value :=
  match env.statError secRing with
  | none => ([], keyIdFromRing env secRing)
  | some err => if IsNotExist (some err) then generateNewSecRing env secRing else ([], "", some err)

def newDefaultConfigFile (env : Env) (path : String) : List Effect × Option Value :=
  let blobDir := env.CamliBlobRoot
  match env.MkdirAll blobDir with
  | some (dir, err) => ([.MkdirAll blobDir],
      some (.Errorf "Could not create default blobs directory: %v" [.PathError "mkdir" dir err]))
  | none =>
    let secRing := env.IdentitySecretRing
    match secretRing env secRing with
    | (ringEffects, _, some err) =>
      (.MkdirAll blobDir :: ringEffects, some (.Errorf "Secret ring: %v" [err]))
    | (ringEffects, keyId, none) =>
      let conf : defaultConfigFile :=
        { Listen := ":3179", HTTPS := false, Auth := "localhost", Identity := keyId,
          IdentitySecretRing := secRing, BlobPath := blobDir, MySQL := "", Mongo := "", S3 := "",
          ReplicateTo := [], Publish := () }
      let effects := .MkdirAll blobDir :: ringEffects ++ [.Write path (.config conf)]
      match env.WriteFile path with
      | some err => (effects, some (.Errorf "Could not create or write default server config: %v"
          [.PathError "open" path err]))
      | none => (effects, none)

def findConfigFile (env : Env) (file : String) : List Effect × String × Option Value :=
  if file = "" then
    let absPath := env.UserServerConfigPath
    let err := env.statError absPath
    if IsNotExist err then
      match env.MkdirAll env.CamliConfigDir with
      | some (dir, err) => ([.MkdirAll env.CamliConfigDir], absPath,
          some (.PathError "mkdir" dir err))
      | none =>
        let (effects, err) := newDefaultConfigFile env absPath
        (.MkdirAll env.CamliConfigDir :: effects, absPath, err)
    else ([], absPath, err)
  else
    let absPath := if env.IsAbs file then file else env.Join env.CamliConfigDir file
    ([], absPath, env.statError absPath)

def checkDefaultTLS (env : Env) (listen cert key : String) : List Effect × Except Exit Unit :=
  if cert = defCert ∧ key = defKey then
    let err1 := env.statError cert
    let err2 := env.statError key
    if err1.isSome ∨ err2.isSome then
      if IsNotExist err1 ∨ IsNotExist err2 then
        match genSelfTLS env listen with
        | (effects, some err) => (effects, exitf "Could not generate self-signed TLS cert: %q" [err])
        | (effects, none) => (effects, .ok ())
      else ([], exitf "Could not stat cert or key: %q, %q" [errValue err1, errValue err2])
    else ([], .ok ())
  else ([], .ok ())

def setupTLS (env : Env) (config : Config) (listen : String) :
    List Effect × Except Exit (Option (String × String)) :=
  let cert := config.OptionalString "TLSCertFile" ""
  let key := config.OptionalString "TLSKeyFile" ""
  if !config.OptionalBool "https" true then ([], .ok none)
  else if (cert != "") != (key != "") then
    ([], exitf "TLSCertFile and TLSKeyFile must both be either present or absent" [])
  else
    match checkDefaultTLS env listen cert key with
    | (effects, .error exit) => (effects, .error exit)
    | (effects, .ok ()) =>
      if cert = "" ∧ key = "" then
        match genSelfTLS env listen with
        | (generated, some err) =>
            (effects ++ generated, exitf "Could not generate self signed creds: %q" [err])
        | (generated, none) => (effects ++ generated, .ok (some (defCert, defKey)))
      else (effects, .ok (some (cert, key)))

def listenAndBaseURL (flags : Flags) (config : Config) : Except Exit (String × String) :=
  let baseURL := config.OptionalString "baseURL" ""
  let listenConfig := config.OptionalString "listen" ""
  if flags.listen = "" then
    if listenConfig = "" then
      exitf "\"listen\" needs to be specified either in the config or on the command line" []
    else .ok (listenConfig, baseURL)
  else .ok (flags.listen, baseURL)

def openURLs (env : Env) (configfile UIPath : String) : List Effect :=
  let urlOpened := UIPath ≠ "" ∧ env.GOOS = "windows"
  (if urlOpened then [.OpenURL (env.ListenURL ++ UIPath)] else []) ++
    if configfile = "" ∧ ¬ urlOpened then [.OpenURL env.ListenURL] else []

structure Served where
  config : Config
  listen : String
  baseURL : String
  TLS : Option (String × String)
  UIPath : String

def main (env : Env) (flags : Flags) : List Effect × Except Exit Served :=
  match findConfigFile env flags.configfile with
  | (found, fileName, some err) =>
    (found, exitf "Error finding config file %q: %v" [.str fileName, err])
  | (found, fileName, none) =>
    match env.Load fileName with
    | .error err => (found, exitf "Could not load server config: %v" [.ErrorString err])
    | .ok config =>
      match listenAndBaseURL flags config with
      | .error exit => (found, .error exit)
      | .ok (listen, baseURL) =>
        match setupTLS env config listen with
        | (tls, .error exit) => (found ++ tls, .error exit)
        | (tls, .ok TLS) =>
          match env.InstallHandlers baseURL with
          | .error err => (found ++ tls, exitf "Error parsing config: %v" [.ErrorString err])
          | .ok UIPath =>
            match env.Listen listen with
            | some err => (found ++ tls, exitf "Listen: %v" [.ErrorString err])
            | none => (found ++ tls ++ openURLs env flags.configfile UIPath,
                .ok ⟨config, listen, baseURL, TLS, UIPath⟩)

/-! ## What each function does -/

@[simp] theorem IsNotExist_statError (env : Env) (name : String) :
    IsNotExist (env.statError name) = true ↔ env.Stat name = some ENOENT := by
  cases stat : env.Stat name <;> simp [Env.statError, IsNotExist, stat]

theorem genSelfTLS_effects (env : Env) (listen : String) :
    ∀ e ∈ (genSelfTLS env listen).1,
      (∃ hostname, e = .Write defCert (.certificate hostname)) ∨ e = .Write defKey .privateKey := by
  unfold genSelfTLS
  repeat' split
  all_goals simp

theorem keyIdFromRing_ok (env : Env) {filename keyId : String}
    (ok : keyIdFromRing env filename = (keyId, none)) : env.ReadKeyRing filename = .ok [keyId] := by
  unfold keyIdFromRing at ok
  repeat' split at ok
  all_goals simp_all

theorem generateNewSecRing_spec (env : Env) (filename : String) :
    (∀ e ∈ (generateNewSecRing env filename).1, ∃ keyId, e = .Write filename (.keyRing keyId)) ∧
    ∀ keyId, (generateNewSecRing env filename).2 = (keyId, none) → env.NewEntity = .ok keyId := by
  unfold generateNewSecRing
  repeat' split
  all_goals simp_all

theorem secretRing_spec (env : Env) (secRing : String) :
    (∀ e ∈ (secretRing env secRing).1,
      env.Stat secRing = some ENOENT ∧ ∃ keyId, e = .Write secRing (.keyRing keyId)) ∧
    ∀ keyId, (secretRing env secRing).2 = (keyId, none) →
      env.Stat secRing = none ∧ env.ReadKeyRing secRing = .ok [keyId] ∨
      env.Stat secRing = some ENOENT ∧ env.NewEntity = .ok keyId := by
  have missing := IsNotExist_statError env secRing
  unfold secretRing
  split
  case h_1 present =>
    simp only [Env.statError, Option.map_eq_none'] at present
    exact ⟨by simp, fun keyId ok => .inl ⟨present, keyIdFromRing_ok env ok⟩⟩
  case h_2 err failed =>
    rw [failed] at missing
    split
    case isTrue notExist =>
      have ⟨writes, made⟩ := generateNewSecRing_spec env secRing
      exact ⟨fun e mem => ⟨missing.mp notExist, writes e mem⟩,
        fun keyId ok => .inr ⟨missing.mp notExist, made keyId ok⟩⟩
    case isFalse => simp

theorem newDefaultConfigFile_effects (env : Env) (path : String) :
    ∀ e ∈ (newDefaultConfigFile env path).1, e = .MkdirAll env.CamliBlobRoot ∨
      env.Stat env.IdentitySecretRing = some ENOENT ∧
        (∃ keyId, e = .Write env.IdentitySecretRing (.keyRing keyId)) ∨
      ∃ conf, e = .Write path (.config conf) ∧ conf.Listen = ":3179" ∧ conf.HTTPS = false ∧
        conf.Auth = "localhost" ∧ conf.BlobPath = env.CamliBlobRoot ∧
        conf.IdentitySecretRing = env.IdentitySecretRing ∧
        (env.Stat env.IdentitySecretRing = none ∧
            env.ReadKeyRing env.IdentitySecretRing = .ok [conf.Identity] ∨
          env.Stat env.IdentitySecretRing = some ENOENT ∧ env.NewEntity = .ok conf.Identity) := by
  have ⟨ringWrites, ringKey⟩ := secretRing_spec env env.IdentitySecretRing
  intro e mem
  unfold newDefaultConfigFile at mem
  rcases mkdir : env.MkdirAll env.CamliBlobRoot with _ | ⟨dir, err⟩
  case some =>
    simp only [mkdir, List.mem_singleton] at mem
    exact .inl mem
  rcases ring : secretRing env env.IdentitySecretRing with ⟨ringEffects, keyId, _ | err⟩
  case some =>
    simp only [mkdir, ring, List.mem_cons] at mem
    rcases mem with rfl | mem
    · exact .inl rfl
    · exact .inr (.inl (ringWrites e (by rw [ring]; exact mem)))
  have key := ringKey keyId (congrArg Prod.snd ring)
  simp only [mkdir, ring] at mem
  split at mem
  all_goals
    simp only [List.cons_append, List.mem_cons, List.mem_append, List.mem_singleton,
      List.not_mem_nil, or_false] at mem
    rcases mem with rfl | mem | rfl
    · exact .inl rfl
    · exact .inr (.inl (ringWrites e (by rw [ring]; exact mem)))
    · exact .inr (.inr ⟨_, rfl, rfl, rfl, rfl, rfl, rfl, key⟩)

theorem findConfigFile_effects (env : Env) (file : String) :
    ∀ e ∈ (findConfigFile env file).1, file = "" ∧ env.Stat env.UserServerConfigPath = some ENOENT ∧
      (e = .MkdirAll env.CamliConfigDir ∨
        e ∈ (newDefaultConfigFile env env.UserServerConfigPath).1) := by
  intro e mem
  unfold findConfigFile at mem
  by_cases unnamed : file = ""
  · by_cases notExist : IsNotExist (env.statError env.UserServerConfigPath) = true
    · have absent := (IsNotExist_statError env _).mp notExist
      rcases mkdir : env.MkdirAll env.CamliConfigDir with _ | ⟨dir, err⟩ <;>
        simp only [unnamed, notExist, mkdir, if_true, List.mem_cons, List.not_mem_nil, or_false] at mem
      · exact ⟨unnamed, absent, mem⟩
      · exact ⟨unnamed, absent, .inl mem⟩
    · simp [unnamed, notExist] at mem
  · simp [unnamed] at mem

theorem checkDefaultTLS_other (env : Env) (listen : String) {cert key : String}
    (other : ¬ (cert = defCert ∧ key = defKey)) :
    checkDefaultTLS env listen cert key = ([], .ok ()) := by
  simp [checkDefaultTLS, other]

theorem checkDefaultTLS_effects (env : Env) (listen cert key : String) :
    ∀ e ∈ (checkDefaultTLS env listen cert key).1, cert = defCert ∧ key = defKey ∧
      (env.Stat defCert = some ENOENT ∨ env.Stat defKey = some ENOENT) ∧
      e ∈ (genSelfTLS env listen).1 := by
  intro e mem
  unfold checkDefaultTLS at mem
  dsimp only at mem
  split_ifs at mem with named stated missing
  · obtain ⟨rfl, rfl⟩ := named
    refine ⟨rfl, rfl, by simpa using missing, ?_⟩
    split at mem <;> simp_all
  all_goals simp at mem

theorem setupTLS_effects (env : Env) (config : Config) (listen : String) :
    ∀ e ∈ (setupTLS env config listen).1, e ∈ (genSelfTLS env listen).1 ∧
      config.OptionalBool "https" true = true ∧
      (config.OptionalString "TLSCertFile" "" = "" ∧ config.OptionalString "TLSKeyFile" "" = "" ∨
        config.OptionalString "TLSCertFile" "" = defCert ∧
          config.OptionalString "TLSKeyFile" "" = defKey ∧
          (env.Stat defCert = some ENOENT ∨ env.Stat defKey = some ENOENT)) := by
  intro e mem
  unfold setupTLS at mem
  dsimp only at mem
  split_ifs at mem with off mismatch unnamed
  · simp at mem
  · simp at mem
  · have https : config.OptionalBool "https" true = true := by simpa using off
    rw [checkDefaultTLS_other env listen fun named => by simp [unnamed.1, defCert] at named] at mem
    dsimp only at mem
    split at mem <;> simp_all
  · have checked : e ∈ (checkDefaultTLS env listen (config.OptionalString "TLSCertFile" "")
        (config.OptionalString "TLSKeyFile" "")).1 := by
      split at mem <;> simp_all
    obtain ⟨cert, key, missing, generated⟩ := checkDefaultTLS_effects env listen _ _ e checked
    exact ⟨generated, by simpa using off, .inr ⟨cert, key, missing⟩⟩

/-- How a start goes: it stops where a step fails, with what it did so far, or it serves and
opens the browser. -/
theorem main_cases (env : Env) (flags : Flags) :
    (∃ exit, main env flags = ((findConfigFile env flags.configfile).1, .error exit)) ∨
    (∃ config listen exit, env.Load (findConfigFile env flags.configfile).2.1 = .ok config ∧
      main env flags =
        ((findConfigFile env flags.configfile).1 ++ (setupTLS env config listen).1, .error exit)) ∨
    ∃ served, env.Load (findConfigFile env flags.configfile).2.1 = .ok served.config ∧
      listenAndBaseURL flags served.config = .ok (served.listen, served.baseURL) ∧
      (setupTLS env served.config served.listen).2 = .ok served.TLS ∧
      main env flags = ((findConfigFile env flags.configfile).1 ++
        (setupTLS env served.config served.listen).1 ++ openURLs env flags.configfile served.UIPath,
        .ok served) := by
  unfold main
  rcases found : findConfigFile env flags.configfile with ⟨found, fileName, _ | err⟩
  case some => exact .inl ⟨_, rfl⟩
  dsimp only
  rcases loaded : env.Load fileName with err | config
  case error => exact .inl ⟨_, rfl⟩
  dsimp only
  rcases chosen : listenAndBaseURL flags config with exit | ⟨listen, baseURL⟩
  case error => exact .inl ⟨_, rfl⟩
  dsimp only
  rcases tls : setupTLS env config listen with ⟨tlsEffects, exit | TLS⟩
  case error => exact .inr (.inl ⟨config, listen, exit, rfl, by rw [tls]⟩)
  dsimp only
  rcases installed : env.InstallHandlers baseURL with err | UIPath
  case error => exact .inr (.inl ⟨config, listen, _, rfl, by rw [tls]; rfl⟩)
  dsimp only
  rcases listening : env.Listen listen with _ | err
  case some => exact .inr (.inl ⟨config, listen, _, rfl, by rw [tls]; rfl⟩)
  exact .inr (.inr ⟨⟨config, listen, baseURL, TLS, UIPath⟩, rfl, chosen, by rw [tls], by rw [tls]⟩)

theorem main_effects (env : Env) (flags : Flags) :
    ∀ e ∈ (main env flags).1, e ∈ (findConfigFile env flags.configfile).1 ∨
      (∃ config listen, env.Load (findConfigFile env flags.configfile).2.1 = .ok config ∧
        e ∈ (setupTLS env config listen).1) ∨
      ∃ served, (main env flags).2 = .ok served ∧ e ∈ openURLs env flags.configfile served.UIPath := by
  intro e mem
  rcases main_cases env flags with ⟨exit, same⟩ | ⟨config, listen, exit, loaded, same⟩ |
      ⟨served, loaded, -, -, same⟩ <;>
    rw [same] at mem ⊢ <;> simp only [List.mem_append] at mem
  · exact .inl mem
  · exact mem.imp_right fun mem => .inl ⟨config, listen, loaded, mem⟩
  · rcases mem with (mem | mem) | mem
    · exact .inl mem
    · exact .inr (.inl ⟨_, _, loaded, mem⟩)
    · exact .inr (.inr ⟨served, rfl, mem⟩)

theorem openURLs_only_open (env : Env) (configfile UIPath : String) :
    ∀ e ∈ openURLs env configfile UIPath, ∃ url, e = .OpenURL url := by
  unfold openURLs
  dsimp only
  split_ifs <;> simp

/-- A file a start writes: on a first start, one `newDefaultConfigFile` writes; or one the TLS
set-up writes on the config loaded. -/
theorem main_writes (env : Env) (flags : Flags) {path : String} {contents : Contents}
    (written : .Write path contents ∈ (main env flags).1) :
    flags.configfile = "" ∧ env.Stat env.UserServerConfigPath = some ENOENT ∧
      .Write path contents ∈ (newDefaultConfigFile env env.UserServerConfigPath).1 ∨
    ∃ config listen, env.Load (findConfigFile env flags.configfile).2.1 = .ok config ∧
      .Write path contents ∈ (setupTLS env config listen).1 := by
  rcases main_effects env flags _ written with found | tls | ⟨served, -, opened⟩
  · obtain ⟨unnamed, absent, mem⟩ := findConfigFile_effects env _ _ found
    simp only [reduceCtorEq, false_or] at mem
    exact .inl ⟨unnamed, absent, mem⟩
  · exact .inr tls
  · obtain ⟨_, url⟩ := openURLs_only_open env _ _ _ opened
    cases url

/-- A start of camlistored, however it ends, writes over no file that was there before except
the self-signed certificate and key. -/
theorem camlistored_start_overwrites_only_self_signed_credentials (env : Env) (flags : Flags)
    {path : String} {contents : Contents} (written : .Write path contents ∈ (main env flags).1) :
    env.Stat path = some ENOENT ∨ path = defCert ∨ path = defKey := by
  rcases main_writes env flags written with ⟨-, absentConfig, mem⟩ | ⟨config, listen, -, tls⟩
  · rcases newDefaultConfigFile_effects env _ _ mem with made | ⟨absent, _, ring⟩ | ⟨_, config, -⟩
    · cases made
    · rw [(Effect.Write.inj ring).1]
      exact .inl absent
    · rw [(Effect.Write.inj config).1]
      exact .inl absentConfig
  · rcases genSelfTLS_effects env listen _ (setupTLS_effects env config listen _ tls).1 with
      ⟨_, cert⟩ | key
    · exact .inr (.inl (Effect.Write.inj cert).1)
    · exact .inr (.inr (Effect.Write.inj key).1)

/-- What `serverconfig.Load` reads from a file holding `conf`, by the fields' JSON names. -/
def defaultConfigFile.config (conf : defaultConfigFile) : Config where
  strings
    | "listen" => some conf.Listen
    | "auth" => some conf.Auth
    | "identity" => some conf.Identity
    | "identitySecretRing" => some conf.IdentitySecretRing
    | "blobPath" => some conf.BlobPath
    | "mysql" => some conf.MySQL
    | "mongo" => some conf.Mongo
    | "s3" => some conf.S3
    | _ => none
  bools key := if key = "https" then some conf.HTTPS else none

def firstConfig : defaultConfigFile :=
  { Listen := ":3179", HTTPS := false, Auth := "localhost", Identity := "26F5ABDA",
    IdentitySecretRing := "home/.camli/identity-secring.gpg",
    BlobPath := "home/var/camlistore/blobs", MySQL := "", Mongo := "", S3 := "",
    ReplicateTo := [], Publish := () }

/-- A first start on a machine with nothing of camlistore on it, where every call succeeds and
the config loaded is the one the start writes. -/
def firstStart : Env where
  UserServerConfigPath := "home/.camli/serverconfig"
  CamliConfigDir := "home/.camli"
  CamliBlobRoot := "home/var/camlistore/blobs"
  IdentitySecretRing := "home/.camli/identity-secring.gpg"
  IsAbs := fun _ => false
  Join := fun dir file => dir ++ "/" ++ file
  Stat := fun _ => some ENOENT
  MkdirAll := fun _ => none
  Open := fun _ => none
  OpenFile := fun _ => none
  Create := fun _ => none
  WriteFile := fun _ => none
  ReadKeyRing := fun _ => .ok []
  NewEntity := .ok "26F5ABDA"
  WriteKeyRing := none
  GenerateKey := none
  SplitHostPort := fun _ => .ok ""
  CreateCertificate := none
  Load := fun _ => .ok firstConfig.config
  InstallHandlers := fun _ => .ok "/ui/"
  Listen := fun _ => none
  ListenURL := "http://localhost:3179"
  GOOS := "linux"

example : (main firstStart ⟨"", ""⟩).1[3]? =
    some (.Write firstStart.UserServerConfigPath (.config firstConfig)) := rfl

theorem first_start_overwrites_nothing :
    firstStart.Stat firstStart.IdentitySecretRing = some ENOENT ∨
      firstStart.IdentitySecretRing = defCert ∨ firstStart.IdentitySecretRing = defKey :=
  camlistored_start_overwrites_only_self_signed_credentials firstStart ⟨"", ""⟩
    (List.getElem?_mem (rfl : (main firstStart ⟨"", ""⟩).1[2]? =
      some (.Write firstStart.IdentitySecretRing (.keyRing "26F5ABDA"))))

/-- A start with `-configfile serverconfig`, a config that names only a listen address: HTTPS is
on, with self-signed files. -/
def configured : Env :=
  { firstStart with
    Stat := fun name => if name = "home/.camli/serverconfig" then none else some ENOENT
    Load := fun _ => .ok ⟨fun key => if key = "listen" then some ":3179" else none, fun _ => none⟩
    ListenURL := "https://localhost:3179" }

/-! ## The messages a start exits with -/

section Messages

variable (env : Env)

theorem genSelfTLS_error (listen : String) {err : Value}
    (failed : (genSelfTLS env listen).2 = some err) :
    fits 'q' err = true ∧ (err.formatted = true ∨ ∃ e, env.OpenFile defKey = some e ∧
      err = .Errorf "failed to open %s for writing:" [.str defKey, .PathError "open" defKey e]) := by
  unfold genSelfTLS at failed
  repeat' split at failed
  all_goals cases failed
  all_goals first
    | exact ⟨rfl, .inr ⟨_, ‹_›, rfl⟩⟩
    | exact ⟨rfl, .inl rfl⟩

theorem keyIdFromRing_error (filename : String) {err : Value}
    (failed : (keyIdFromRing env filename).2 = some err) : err.formatted = true := by
  unfold keyIdFromRing at failed
  repeat' split at failed
  all_goals cases failed
  all_goals rfl

theorem generateNewSecRing_error (filename : String) {err : Value}
    (failed : (generateNewSecRing env filename).2.2 = some err) : err.formatted = true := by
  unfold generateNewSecRing at failed
  repeat' split at failed
  all_goals cases failed
  all_goals rfl

theorem statError_formatted {name : String} {err : Value} (stated : env.statError name = some err) :
    err.formatted = true := by
  simp only [Env.statError, Option.map_eq_some'] at stated
  obtain ⟨_, -, rfl⟩ := stated
  rfl

theorem secretRing_error (secRing : String) {err : Value}
    (failed : (secretRing env secRing).2.2 = some err) : err.formatted = true := by
  unfold secretRing at failed
  split at failed
  · exact keyIdFromRing_error env secRing failed
  · rename_i stated
    split at failed
    · exact generateNewSecRing_error env secRing failed
    · cases failed
      exact statError_formatted env stated

theorem newDefaultConfigFile_error (path : String) {err : Value}
    (failed : (newDefaultConfigFile env path).2 = some err) : err.formatted = true := by
  unfold newDefaultConfigFile at failed
  rcases mkdir : env.MkdirAll env.CamliBlobRoot with _ | ⟨dir, e⟩
  case some =>
    simp only [mkdir, Option.some.injEq] at failed
    subst failed
    rfl
  rcases ring : secretRing env env.IdentitySecretRing with ⟨ringEffects, keyId, _ | ringErr⟩
  case some =>
    simp only [mkdir, ring, Option.some.injEq] at failed
    subst failed
    show formattedArgs ['v'] [ringErr] = true
    simp [formattedArgs, secretRing_error env _ (congrArg (fun r => r.2.2) ring)]
  simp only [mkdir, ring] at failed
  split at failed <;> cases failed
  rfl

theorem findConfigFile_error (file : String) {err : Value}
    (failed : (findConfigFile env file).2.2 = some err) : err.formatted = true := by
  unfold findConfigFile at failed
  dsimp only at failed
  split_ifs at failed
  · split at failed
    · cases failed
      rfl
    · exact newDefaultConfigFile_error env _ failed
  all_goals exact statError_formatted env failed

theorem exitf_error {α : Type} {pattern : String} {args : List Value} {exit : Exit}
    (noNewline : HasSuffix pattern "\n" = false)
    (exited : (exitf pattern args : Except Exit α) = .error exit) :
    exit = ⟨pattern ++ "\n", args⟩ := by
  simp only [exitf, noNewline, Except.error.injEq] at exited
  exact exited.symm

theorem listenAndBaseURL_error (flags : Flags) (config : Config) {exit : Exit}
    (exited : listenAndBaseURL flags config = .error exit) : exit.formatted = true := by
  unfold listenAndBaseURL at exited
  dsimp only at exited
  split_ifs at exited
  rw [exitf_error (by decide) exited]
  rfl

/-- The exit wraps the error of a self-signed key file `genSelfTLS` could not open. -/
def KeyFileUnopened (exit : Exit) : Prop :=
  ∃ err, env.OpenFile defKey = some err ∧
    exit.args = [.Errorf "failed to open %s for writing:" [.str defKey, .PathError "open" defKey err]]

/-- The exit reports default certificate files of which one is there and the other could not be
stat'ed: the nil error of the one there goes to a `%q`. -/
def StatHalfFailed (exit : Exit) : Prop :=
  exit = ⟨"Could not stat cert or key: %q, %q\n",
      [errValue (env.statError defCert), errValue (env.statError defKey)]⟩ ∧
    (env.Stat defCert = none ∨ env.Stat defKey = none)

theorem generated_error {pattern : String} {listen : String} {err : Value} {exit : Exit}
    (failed : (genSelfTLS env listen).2 = some err) (single : verbs pattern.data = ['q'])
    (exited : exit = ⟨pattern, [err]⟩) : exit.formatted = true ∨ KeyFileUnopened env exit := by
  subst exited
  obtain ⟨quoted, formatted | ⟨e, unopened, rfl⟩⟩ := genSelfTLS_error env listen failed
  · simp [Exit.formatted, single, formattedArgs, formatted, quoted]
  · exact .inr ⟨e, unopened, rfl⟩

theorem checkDefaultTLS_error (listen cert key : String) {exit : Exit}
    (exited : (checkDefaultTLS env listen cert key).2 = .error exit) :
    exit.formatted = true ∨ KeyFileUnopened env exit ∨ StatHalfFailed env exit := by
  unfold checkDefaultTLS at exited
  dsimp only at exited
  split_ifs at exited with named stated missing
  · split at exited
    · rename_i failed
      exact (generated_error env (congrArg Prod.snd failed) (by decide)
        (exitf_error (by decide) exited)).imp_right .inl
    · cases exited
  · obtain ⟨rfl, rfl⟩ := named
    rw [exitf_error (by decide) exited]
    rcases certStat : env.Stat defCert with _ | e1 <;> rcases keyStat : env.Stat defKey with _ | e2
    · simp [Env.statError, certStat, keyStat] at stated
    · exact .inr (.inr ⟨rfl, .inl certStat⟩)
    · exact .inr (.inr ⟨rfl, .inr keyStat⟩)
    · left
      simp only [Env.statError, certStat, keyStat, Option.map_some', errValue]
      rfl

theorem setupTLS_error (config : Config) (listen : String) {exit : Exit}
    (exited : (setupTLS env config listen).2 = .error exit) :
    exit.formatted = true ∨ KeyFileUnopened env exit ∨ StatHalfFailed env exit := by
  unfold setupTLS at exited
  dsimp only at exited
  split_ifs at exited with off mismatch unnamed
  · dsimp only at exited
    rw [exitf_error (by decide) exited]
    exact .inl rfl
  · rw [checkDefaultTLS_other env listen fun named => by simp [unnamed.1, defCert] at named] at exited
    dsimp only at exited
    split at exited
    · rename_i failed
      exact (generated_error env (congrArg Prod.snd failed) (by decide)
        (exitf_error (by decide) exited)).imp_right .inl
    · cases exited
  · split at exited
    · rename_i checked
      cases exited
      exact checkDefaultTLS_error env listen _ _ (congrArg Prod.snd checked)
    · cases exited

theorem main_error (flags : Flags) {exit : Exit} (exited : (main env flags).2 = .error exit) :
    exit.formatted = true ∨ KeyFileUnopened env exit ∨ StatHalfFailed env exit := by
  unfold main at exited
  rcases found : findConfigFile env flags.configfile with ⟨found, fileName, _ | err⟩
  case some =>
    simp only [found] at exited
    rw [exitf_error (by decide) exited]
    refine .inl (show formattedArgs ['q', 'v'] [.str fileName, err] = true from ?_)
    simp only [formattedArgs, fits_v, findConfigFile_error env _ (congrArg (fun r => r.2.2) found),
      Bool.and_true]
    rfl
  simp only [found] at exited
  rcases loaded : env.Load fileName with err | config
  case error =>
    simp only [loaded] at exited
    rw [exitf_error (by decide) exited]
    exact .inl rfl
  simp only [loaded] at exited
  rcases chosen : listenAndBaseURL flags config with exit' | ⟨listen, baseURL⟩
  case error =>
    simp only [chosen] at exited
    cases exited
    exact .inl (listenAndBaseURL_error flags config chosen)
  simp only [chosen] at exited
  rcases tls : setupTLS env config listen with ⟨tlsEffects, exit' | TLS⟩
  case error =>
    simp only [tls] at exited
    cases exited
    exact setupTLS_error env config listen (congrArg Prod.snd tls)
  simp only [tls] at exited
  split at exited
  · rw [exitf_error (by decide) exited]
    exact .inl rfl
  · split at exited
    · rw [exitf_error (by decide) exited]
      exact .inl rfl
    · cases exited

theorem KeyFileUnopened.not_formatted {exit : Exit} (unopened : KeyFileUnopened env exit) :
    exit.formatted = false := by
  obtain ⟨e, -, args⟩ := unopened
  have extra : (Value.Errorf "failed to open %s for writing:"
      [.str defKey, .PathError "open" defKey e]).formatted = false := rfl
  unfold Exit.formatted
  rw [args]
  cases verbs exit.pattern.data <;> simp [formattedArgs, extra]

theorem StatHalfFailed.not_formatted {exit : Exit} (half : StatHalfFailed env exit) :
    exit.formatted = false := by
  obtain ⟨rfl, certMissing | keyMissing⟩ := half
  · simp only [Env.statError, certMissing, Option.map_none', errValue]
    rfl
  · simp only [Env.statError, keyMissing, Option.map_none', errValue]
    cases env.Stat defCert <;> rfl

end Messages

/-- An exit message of a start makes `fmt` complain exactly when the self-signed key file
cannot be opened, or when one default certificate file is there and the other cannot be stat'ed. -/
theorem camlistored_exit_messages_malformed_only_twice (env : Env) (flags : Flags) {exit : Exit}
    (exited : (main env flags).2 = .error exit) :
    exit.formatted = false ↔ KeyFileUnopened env exit ∨ StatHalfFailed env exit := by
  constructor
  · intro malformed
    rcases main_error env flags exited with formatted | exception
    · rw [formatted] at malformed
      cases malformed
    · exact exception
  · rintro (unopened | half)
    · exact unopened.not_formatted
    · exact half.not_formatted

def keyFileDenied : Env :=
  { configured with OpenFile := fun name => if name = defKey then some ⟨13⟩ else none }

theorem key_file_denied_exit_malformed :
    ∃ exit, (main keyFileDenied ⟨"serverconfig", ""⟩).2 = .error exit ∧ exit.formatted = false :=
  ⟨_, rfl, (camlistored_exit_messages_malformed_only_twice keyFileDenied ⟨"serverconfig", ""⟩
    rfl).mpr (.inl ⟨⟨13⟩, rfl, rfl⟩)⟩

end Camlistore.Camlistored
