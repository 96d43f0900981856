import Llmap.Common.Files
/-!
# The certificate authority

`ca init` makes a key and a certificate of its own for it, and writes a file of
each; the forward proxy loads them when it starts. Both files are created where
there was none. A command that finds either of them gives up, and one that
finds the certificate only when it gets to it removes its key again.

Nothing keeps two of these commands from running at the same time, and each of
them may fail or be stopped at any step. They keep to the files they hold
(`generateCa_keeping`), and that is enough: what was there before is not
touched, and a command that succeeds has written a pair that can be loaded, for
as long as nothing else removes it.
-/

namespace Llmap

namespace ForwardProxy

open Files

/-- `KeyUsagePurpose`, as far as it is used. -/
inductive KeyUsagePurpose where
  | keyCertSign
  | crlSign
  | digitalSignature

/-- `CertificateParams`, with the fields that are set. -/
structure CertificateParams where
  commonName : String
  organizationName : String
  /-- `IsCa::Ca(BasicConstraints::Unconstrained)`. -/
  isCa : Bool
  keyUsages : List KeyUsagePurpose

/-- `rcgen`. -/
class Rcgen where
  KeyPair : Type
  Certificate : Type
  Issuer : Type
  /-- `KeyPair::serialize_pem`. -/
  serializePem : KeyPair → String
  /-- `CertificateParams::self_signed`. -/
  selfSigned : CertificateParams → KeyPair → Except String Certificate
  /-- `Certificate::pem`. -/
  pem : Certificate → String
  /-- `KeyPair::from_pem`. -/
  fromPem : String → Except String KeyPair
  /-- `Issuer::from_ca_cert_pem`. -/
  fromCaCertPem : String → KeyPair → Except String Issuer

/-- What is written can be read: a key, and the certificate that an authority
has made of it. -/
class LawfulRcgen [Rcgen] : Prop where
  fromPem_serializePem : ∀ key : Rcgen.KeyPair, Rcgen.fromPem (Rcgen.serializePem key) = .ok key
  fromCaCertPem_pem : ∀ (params : CertificateParams) (key : Rcgen.KeyPair) certificate,
    params.isCa = true → Rcgen.selfSigned params key = .ok certificate →
      ∃ issuer, Rcgen.fromCaCertPem (Rcgen.pem certificate) key = .ok issuer

/-- `Path::parent`. -/
class Paths where
  parent : String → Option String

/-- `ForwardProxyError`, without what `hudsucker` and the address give. -/
inductive ForwardProxyError where
  | alreadyExists
  | certificate (error : String)
  | io (error : IoError)
deriving DecidableEq

/-- A part of a command. -/
abbrev Part (α : Type) := Prog (Files.Op String) Files.Op.Resp α

/-- `?`: what comes next, unless there was an error. -/
def andThen {α β : Type} (p : Part (Except ForwardProxyError α))
    (next : α → Part (Except ForwardProxyError β)) : Part (Except ForwardProxyError β) :=
  p >>= fun
    | .error error => .ret (.error error)
    | .ok a => next a

section Commands

variable [Rcgen] [Paths]

/-- `create_parent`. -/
def createParent (path : String) : Part (Except ForwardProxyError Unit) :=
  match Paths.parent path with
  | none => .ret (.ok ())
  | some parent =>
      if parent = "" then .ret (.ok ())
      else .call (.createDirAll parent) fun created => .ret (created.mapError .io)

/-- `write_new`. -/
def writeNew (path : String) (contents : Bytes) (isPrivate : Bool) :
    Part (Except ForwardProxyError Unit) :=
  .call (.createNew path (if isPrivate then 0o600 else 0o644)) fun
    | .error error => .ret (.error (.io error))
    | .ok file => .call (.writeAll file contents) fun
        | .error error => .ret (.error (.io error))
        | .ok () => .call (.syncAll file) fun synced => .ret (synced.mapError .io)

/-- The parameters of the certificate. -/
def authorityParams : CertificateParams where
  commonName := "LLM Multiaccount Proxy Local Root"
  organizationName := "Triform"
  isCa := true
  keyUsages := [.keyCertSign, .crlSign, .digitalSignature]

/-- `generate_ca` from where the key is drawn. -/
def writeCa (certPath keyPath : String) (drawn : Except String Rcgen.KeyPair) :
    Part (Except ForwardProxyError Unit) :=
  match drawn with
  | .error error => .ret (.error (.certificate error))
  | .ok signingKey =>
      match Rcgen.selfSigned authorityParams signingKey with
      | .error error => .ret (.error (.certificate error))
      | .ok certificate =>
          andThen (writeNew keyPath (asBytes (Rcgen.serializePem signingKey)) true) fun _ =>
            writeNew certPath (asBytes (Rcgen.pem certificate)) false >>= fun
              | .error error => .call (.removeFile keyPath) fun _ => .ret (.error error)
              | .ok () => .ret (.ok ())

/-- `generate_ca`, with what `KeyPair::generate` draws. -/
def generateCa (certPath keyPath : String) (drawn : Except String Rcgen.KeyPair) :
    Part (Except ForwardProxyError Unit) :=
  .call (.pathExists certPath) fun
    | true => .ret (.error .alreadyExists)
    | false => .call (.pathExists keyPath) fun
        | true => .ret (.error .alreadyExists)
        | false => andThen (createParent certPath) fun _ =>
            andThen (createParent keyPath) fun _ => writeCa certPath keyPath drawn

/-- `read_to_string`. -/
def readToString (path : String) : Part (Except ForwardProxyError String) :=
  .call (.read path) fun
    | .error error => .ret (.error (.io error))
    | .ok bytes =>
        .ret ((fromUtf8 bytes).elim
          (.error (.io (.other "stream did not contain valid UTF-8"))) .ok)

/-- `load_ca`. -/
def loadCa (certPath keyPath : String) : Part (Except ForwardProxyError Rcgen.Issuer) :=
  andThen (readToString certPath) fun certPem => andThen (readToString keyPath) fun keyPem =>
    match Rcgen.fromPem keyPem with
    | .error error => .ret (.error (.certificate error))
    | .ok keyPair => .ret ((Rcgen.fromCaCertPem certPem keyPair).mapError .certificate)

end Commands

/-! ## What a command holds -/

section Holding

/-- What is held, after a file was created besides and written. -/
def written (path : String) (mode file : ℕ) (contents : Bytes) (held : List (Held String)) :
    List (Held String) :=
  ⟨path, file, mode, some contents⟩ :: held.map fun x =>
    { x with content := if x.handle ≠ file then x.content else x.content.map (· ++ contents) }

/-- **A new file** that is written through holds what was to be written; and
whatever comes of it, what was held still is. -/
theorem writeNew_keeping (path : String) (contents : Bytes) (isPrivate : Bool)
    (past : List ((o : Files.Op String) × o.Resp)) :
    Keeping (fun held result => (∀ x ∈ holding past, ∃ y ∈ held, y.path = x.path) ∧
      (result = .ok () → ∃ file, held =
        written path (if isPrivate then 0o600 else 0o644) file contents (holding past)))
      past (writeNew path contents isPrivate) := by
  refine ⟨trivial, ?_⟩
  rintro (error | file)
  · refine ⟨fun x hx => ⟨x, by simpa [hold] using hx, rfl⟩, fun h => by cases h⟩
  · refine ⟨⟨⟨path, file, if isPrivate then 0o600 else 0o644, some []⟩, ?_, rfl⟩, ?_⟩
    · rw [holding_append_singleton]
      exact List.mem_cons_self
    rintro (error | ⟨⟩)
    · refine ⟨fun x hx => ?_, fun h => by cases h⟩
      simp only [holding_append_singleton, hold, List.mem_map, List.mem_cons]
      exact ⟨_, ⟨x, .inr hx, rfl⟩, rfl⟩
    · refine ⟨trivial, fun synced => ⟨fun x hx => ?_, fun _ => ⟨file, ?_⟩⟩⟩
      · simp only [holding_append_singleton, hold, List.mem_map, List.mem_cons]
        exact ⟨_, ⟨x, .inr hx, rfl⟩, rfl⟩
      · rw [holding_append_singleton, holding_append_singleton, holding_append_singleton]
        simp [hold, written]

theorem createParent_keeping [Paths] (path : String)
    (past : List ((o : Files.Op String) × o.Resp)) :
    Keeping (fun held _ => held = holding past) past (createParent path) := by
  unfold createParent
  split
  · exact rfl
  · split
    · exact rfl
    · exact ⟨trivial, fun created => by simp [Prog.Follows, hold]⟩

theorem andThen_keeping {α β : Type} {p : Part (Except ForwardProxyError α)}
    {next : α → Part (Except ForwardProxyError β)}
    {P : List (Held String) → Except ForwardProxyError α → Prop}
    {Q : List (Held String) → Except ForwardProxyError β → Prop}
    {past : List ((o : Files.Op String) × o.Resp)} (hp : Keeping P past p)
    (hnext : ∀ past a, P (holding past) (.ok a) → Keeping Q past (next a))
    (herror : ∀ held error, P held (.error error) → Q held (.error error)) :
    Keeping Q past (andThen p next) := by
  refine Prog.ByPast.bind hp ?_
  rintro later (error | a) hlater
  · exact herror _ error hlater
  · exact hnext later a hlater

variable [Rcgen]

/-- What a command that succeeds holds: a key, and its certificate. -/
def Written (certPath keyPath : String) (drawn : Except String Rcgen.KeyPair)
    (held : List (Held String)) : Prop :=
  ∃ key certificate file file', drawn = .ok key ∧
    Rcgen.selfSigned authorityParams key = .ok certificate ∧
    held = written certPath 0o644 file' (asBytes (Rcgen.pem certificate))
      (written keyPath 0o600 file (asBytes (Rcgen.serializePem key)) [])

/-- The files are two, and hold the key and the certificate. -/
theorem Written.files {certPath keyPath : String} {drawn : Except String Rcgen.KeyPair}
    {held : List (Held String)} (h : Written certPath keyPath drawn held)
    (hdistinct : (held.map Held.handle).Nodup) :
    ∃ key certificate file file', drawn = .ok key ∧
      Rcgen.selfSigned authorityParams key = .ok certificate ∧
      ⟨keyPath, file, 0o600, some (asBytes (Rcgen.serializePem key))⟩ ∈ held ∧
      ⟨certPath, file', 0o644, some (asBytes (Rcgen.pem certificate))⟩ ∈ held := by
  obtain ⟨key, certificate, file, file', hdrawn, hsigned, rfl⟩ := h
  have hne : file ≠ file' := by
    rintro rfl
    simp [written] at hdistinct
  refine ⟨key, certificate, file, file', hdrawn, hsigned, ?_, List.mem_cons_self⟩
  simp [written, hne]

theorem writeCa_keeping (certPath keyPath : String) (drawn : Except String Rcgen.KeyPair)
    {past : List ((o : Files.Op String) × o.Resp)} (hpast : holding past = []) :
    Keeping (fun held result => result = .ok () → Written certPath keyPath drawn held) past
      (writeCa certPath keyPath drawn) := by
  unfold writeCa
  split
  · exact fun h => by cases h
  · rename_i key
    split
    · exact fun h => by cases h
    · rename_i certificate hsigned
      refine andThen_keeping (writeNew_keeping ..) ?_ fun _ _ _ h => by cases h
      rintro later ⟨⟩ ⟨-, hkey⟩
      obtain ⟨file, hkey⟩ := hkey rfl
      rw [hpast] at hkey
      refine Prog.ByPast.bind (writeNew_keeping ..) ?_
      rintro last (error | ⟨⟩) ⟨hstill, hcert⟩
      · -- the key is held, so it may be removed
        have hmem : ⟨keyPath, file, 0o600, some (asBytes (Rcgen.serializePem key))⟩ ∈
            holding later := by
          rw [hkey]
          exact List.mem_cons_self
        obtain ⟨x, hx, hpath⟩ := hstill _ hmem
        exact ⟨⟨x, hx, hpath⟩, fun _ h => by cases h⟩
      · obtain ⟨file', hcert⟩ := hcert rfl
        rw [hkey] at hcert
        exact fun _ => ⟨key, certificate, file, file', rfl, hsigned, hcert⟩

/-- **`ca init` keeps to the files it holds.** -/
theorem generateCa_keeping [Paths] (certPath keyPath : String)
    (drawn : Except String Rcgen.KeyPair) :
    Keeping (fun held result => result = .ok () → Written certPath keyPath drawn held) []
      (generateCa certPath keyPath drawn) := by
  refine ⟨trivial, ?_⟩
  rintro (_ | _)
  · refine ⟨trivial, ?_⟩
    rintro (_ | _)
    · change Keeping (fun held result => result = .ok () → Written certPath keyPath drawn held) _
        (andThen (createParent certPath) _)
      refine andThen_keeping (createParent_keeping ..) (fun past _ hpast => ?_) ?_
      · refine andThen_keeping (createParent_keeping ..) (fun later _ hlater => ?_) ?_
        · exact writeCa_keeping certPath keyPath drawn (hlater.trans hpast)
        · exact fun _ _ _ h => by cases h
      · exact fun _ _ _ h => by cases h
    · exact fun h => by cases h
  · exact fun h => by cases h

end Holding

/-! ## Any commands, however they interleave -/

section Interleaved

variable [Rcgen] [Paths] {ι ω : Type} [DecidableEq ι]

/-- A command: where the files go, and what `KeyPair::generate` draws. -/
structure CaInit where
  certPath : String
  keyPath : String
  drawn : Except String Rcgen.KeyPair

/-- What commands come to under a schedule. One that is stopped has no turn any
more. -/
def initialized (outside : Outside ω) (start : Disk String) (s : ω) (commands : ι → CaInit)
    (schedule : List ι) :
    Pool ι (Disk String × ω) (Files.Op String) Files.Op.Resp (Except ForwardProxyError Unit) :=
  Run.final (Pool.turn outside.exec)
    ⟨(start, s), fun i => generateCa (commands i).certPath (commands i).keyPath (commands i).drawn⟩
    schedule

omit [Paths] in
/-- A pair that is on the disk can be loaded. -/
theorem loadCa_run [LawfulRcgen] {disk : Disk String} {certPath keyPath : String}
    {certMode keyMode : ℕ} {key : Rcgen.KeyPair} {certificate : Rcgen.Certificate}
    (hsigned : Rcgen.selfSigned authorityParams key = .ok certificate)
    (hkey : disk.find? keyPath = some ⟨keyMode, asBytes (Rcgen.serializePem key)⟩)
    (hcert : disk.find? certPath = some ⟨certMode, asBytes (Rcgen.pem certificate)⟩) :
    ∃ issuer, Rcgen.fromCaCertPem (Rcgen.pem certificate) key = .ok issuer ∧
      ((loadCa certPath keyPath).run Outside.calm.exec (disk, ())).2 = .ok issuer := by
  obtain ⟨issuer, hissuer⟩ :=
    LawfulRcgen.fromCaCertPem_pem authorityParams key certificate rfl hsigned
  refine ⟨issuer, hissuer, ?_⟩
  have hread : ∀ {path : String} {mode : ℕ} {text : String},
      disk.find? path = some ⟨mode, asBytes text⟩ →
      (readToString path).run Outside.calm.exec (disk, ()) = ((disk, ()), .ok text) := by
    intro path mode text hfile
    obtain ⟨k, hk, hcontent⟩ := Option.map_eq_some_iff.mp hfile
    simp [readToString, Outside.calm, Outside.exec, Disk.perform, hk, hcontent, fromUtf8_asBytes]
  rw [loadCa, andThen, Prog.run_bind, hread hcert]
  simp only [andThen]
  rw [Prog.run_bind, hread hkey]
  simp only [LawfulRcgen.fromPem_serializePem, hissuer]
  rfl

/-- **Authorities are kept apart.** Any number of commands `ca init`, on any
paths, however their steps interleave, whatever fails and wherever they are
stopped: a file that was there is as it was. A command that has succeeded has
its key on the disk, for its owner only, and its certificate; the two can be
loaded. And no two that have succeeded share a path. -/
theorem authorities_kept_apart [LawfulRcgen] (outside : Outside ω) (start : Disk String) (s : ω)
    (commands : ι → CaInit) (schedule : List ι) :
    let pool := initialized outside start s commands schedule
    let disk := pool.shared.1
    (∀ path file, start.find? path = some file → disk.find? path = some file) ∧
    (∀ i, (pool.procs i).result? = some (.ok ()) → ∃ key certificate issuer,
      (commands i).drawn = .ok key ∧ Rcgen.selfSigned authorityParams key = .ok certificate ∧
      disk.find? (commands i).keyPath = some ⟨0o600, asBytes (Rcgen.serializePem key)⟩ ∧
      disk.find? (commands i).certPath = some ⟨0o644, asBytes (Rcgen.pem certificate)⟩ ∧
      Rcgen.fromCaCertPem (Rcgen.pem certificate) key = .ok issuer ∧
      ((loadCa (commands i).certPath (commands i).keyPath).run Outside.calm.exec (disk, ())).2 =
        .ok issuer) ∧
    ∀ i j, i ≠ j → (pool.procs i).result? = some (.ok ()) →
      (pool.procs j).result? = some (.ok ()) →
      List.Disjoint [(commands i).certPath, (commands i).keyPath]
        [(commands j).certPath, (commands j).keyPath] := by
  intro pool disk
  obtain ⟨hkept, hresults⟩ := kept_of_keeping outside
    ⟨(start, s), fun i =>
      generateCa (commands i).certPath (commands i).keyPath (commands i).drawn⟩
    (fun i => generateCa_keeping (commands i).certPath (commands i).keyPath (commands i).drawn)
    schedule
  have hfiles := fun i (hdone : (pool.procs i).result? = some (.ok ())) =>
    (hresults i _ hdone rfl).files (hkept.distinct i)
  refine ⟨fun path file hfile => hkept.find?_start hfile, fun i hdone => ?_,
    fun i j hne hi hj => ?_⟩
  · obtain ⟨key, certificate, file, file', hdrawn, hsigned, hkey, hcert⟩ := hfiles i hdone
    have hkeyFile := hkept.find?_held hkey rfl
    have hcertFile := hkept.find?_held hcert rfl
    obtain ⟨issuer, hissuer, hload⟩ := loadCa_run hsigned hkeyFile hcertFile
    exact ⟨key, certificate, issuer, hdrawn, hsigned, hkeyFile, hcertFile, hissuer, hload⟩
  · obtain ⟨_, _, _, _, -, -, hikey, hicert⟩ := hfiles i hi
    obtain ⟨_, _, _, _, -, -, hjkey, hjcert⟩ := hfiles j hj
    simp only [List.disjoint_cons_left, List.mem_cons, List.not_mem_nil, or_false, not_or,
      List.disjoint_nil_left, and_true]
    exact ⟨⟨hkept.path_ne hne hicert hjcert, hkept.path_ne hne hicert hjkey⟩,
      hkept.path_ne hne hikey hjcert, hkept.path_ne hne hikey hjkey⟩

end Interleaved

section Example

/-- Keys that are their own text, and sign themselves. -/
@[reducible] def Rcgen.plain : Rcgen where
  KeyPair := String
  Certificate := String
  Issuer := String
  serializePem key := "KEY " ++ key
  selfSigned _ key := .ok key
  pem certificate := "CERTIFICATE " ++ certificate
  fromPem text := .ok (String.ofList (text.toList.drop 4))
  fromCaCertPem text key := if text = "CERTIFICATE " ++ key then .ok key else .error "mismatch"

theorem Rcgen.lawful_plain : @LawfulRcgen Rcgen.plain :=
  @LawfulRcgen.mk Rcgen.plain
    (fun key => congrArg Except.ok (by simp [Rcgen.serializePem]))
    fun _ key certificate _ hsigned => by
      obtain rfl := Except.ok.inj hsigned
      exact ⟨key, if_pos rfl⟩

/-- A disk with nothing on it. -/
def Disk.blank : Disk String := ⟨fun _ => none, fun _ => ⟨0, []⟩, 0, fun _ _ h => by cases h⟩

/-- Two commands find no files, and the first to write has them; the other is
turned away. -/
theorem authorities_kept_apart_race :
    letI := Rcgen.plain
    letI : Paths := ⟨fun _ => none⟩
    let pool := initialized Outside.calm Disk.blank ()
      (fun i : Bool => ⟨"ca.pem", "ca-key.pem", .ok (if i then "second" else "first")⟩)
      [false, false, true, true, false, true, false, false, false, false, false]
    (pool.procs true).result? = some (.error (.io .alreadyExists)) ∧
      pool.shared.1.find? "ca-key.pem" = some ⟨0o600, asBytes "KEY first"⟩ ∧
      ((loadCa "ca.pem" "ca-key.pem").run Outside.calm.exec (pool.shared.1, ())).2 =
        .ok "first" := by
  let := Rcgen.plain
  let : Paths := ⟨fun _ => none⟩
  have := Rcgen.lawful_plain
  intro pool
  have hdone : (pool.procs false).result? = some (.ok ()) := by decide +kernel
  obtain ⟨-, hwritten, -⟩ := authorities_kept_apart Outside.calm Disk.blank ()
    (fun i : Bool => ⟨"ca.pem", "ca-key.pem", .ok (if i then "second" else "first")⟩)
    [false, false, true, true, false, true, false, false, false, false, false]
  obtain ⟨key, certificate, issuer, hdrawn, hsigned, hkey, -, hissuer, hload⟩ :=
    hwritten false hdone
  obtain rfl : "first" = key := Except.ok.inj hdrawn
  obtain rfl : "first" = certificate := Except.ok.inj hsigned
  obtain rfl : "first" = issuer := Except.ok.inj hissuer
  exact ⟨by decide +kernel, hkey, hload⟩

end Example

end ForwardProxy

end Llmap
