import Pomodorough.Library.LexicalPaths
import Pomodorough.Library.OrderedMaps
import Pomodorough.Server.OpaqueTokens
import Pomodorough.Server.Principals

/-! # The files of the web root

`static.go`: which file a request is answered with. Whatever path it asks for, the file is
one below the web root; without a session it is one of the public files, or the page that
takes up a committed deletion again. -/
namespace Pomodorough.Server.WebFiles
open Pomodorough.Library.AtomicSteps Pomodorough.Library.Base64 Pomodorough.Library.LexicalPaths
open Pomodorough.Store.Records Pomodorough.Store.DeletionLedger Pomodorough.Store.Accounts
open Pomodorough.Server.OpaqueTokens Pomodorough.Server.Principals

def ascii : Alphabet UInt8 := ⟨47, 46⟩

def slash : UInt8 := ascii.slash

inductive Method where
  | get | head | other
  deriving DecidableEq, Repr

/-- A request, its path without escapes, and the time of its authentication. -/
structure WebRequest where
  method : Method
  urlPath : Bytes
  requestURI : Bytes
  headers : CredentialHeaders
  now : Time

/-- What the server answers from: `regularFile` opens a path and reads it where it is a
regular file. -/
structure WebServer where
  webRoot : Bytes
  regularFile : Bytes → Option Bytes
  sha256 : Bytes → Hash
  disks : String → AccountDisk
  /-- What was removed from an account while it was authenticated. -/
  removed : UserTables

inductive WebAnswer where
  | methodNotAllowed
  | redirect (returnTo : Bytes)
  | served (relative candidate contents : Bytes)
  | notFound
  | unavailable
  deriving DecidableEq, Repr

def indexHtml : Bytes := bytesOf "index.html"
def appHtml : Bytes := bytesOf "app.html"
def appPath : Bytes := bytesOf "/app"

/-- `publicWebFile`, as a table. -/
def publicWebFiles : List (Bytes × Bytes) :=
  [("/", "index.html"), ("/index.html", "index.html"), ("/landing.css", "landing.css"),
    ("/platform-selector.js", "platform-selector.js"), ("/sentry-client.js", "sentry-client.js"),
    ("/landing.js", "landing.js"), ("/icon.svg", "icon.svg"), ("/privacy", "privacy.html"),
    ("/privacy.html", "privacy.html")].map fun entry => (bytesOf entry.1, bytesOf entry.2)

def publicWebFile (requestPath : Bytes) : Option Bytes := publicWebFiles.lookup requestPath

section
variable (server : WebServer) (request : WebRequest)

/-- `authenticateWeb`, which takes no bearer; with the disk of the account after it. -/
def authenticateWeb : Option (Except StoreError Principal × AccountDisk) :=
  if request.headers.authorization ≠ [] then none
  else (requestCredential server.sha256 request.headers).map fun credential =>
    (authenticateCredential credential.1 credential.2 server.removed request.now).exec
      (server.disks credential.1)

def signedIn : Bool :=
  match authenticateWeb server request with
  | some (.ok _, _) => true
  | _ => false

/-- The deletion of the account that the credential was of has been committed. -/
def deletionCommitted : Bool :=
  match requestCredential server.sha256 request.headers with
  | none => false
  | some (userID, credential) =>
    let disk := match authenticateWeb server request with
      | some (_, disk) => disk
      | none => server.disks userID
    match ((committedDeletionReceipt credential).exec disk).1 with
    | .ok (some receipt) => receipt.generation ≠ 0
    | _ => false

inductive Resolved where
  | file (relative : Bytes) (isPublic : Bool)
  | redirect (returnTo : Bytes)

/-- `resolveWebRequest`. -/
def resolveWebRequest (requestPath : Bytes) : Resolved :=
  match publicWebFile requestPath with
  | some relative => .file relative true
  | none =>
    if signedIn server request then
      if requestPath = appPath then .file appHtml false
      -- `strings.TrimPrefix`; a clean path has the slash
      else .file (requestPath.drop 1) false
    else if requestPath = appPath ∧ deletionCommitted server request then .file appHtml false
    else
      let returnTo := request.requestURI
      if [slash] <+: returnTo ∧ ¬ [slash, slash] <+: returnTo then .redirect returnTo
      else .redirect appPath

/-- `openWebFile`. -/
def openWebFile (relative : Bytes) : Option (Bytes × Bytes) :=
  let root := clean ascii server.webRoot
  let candidate := below ascii root relative
  if candidate ≠ root ∧ ¬ root ++ [slash] <+: candidate then none
  else (server.regularFile candidate).map fun contents => (candidate, contents)

/-- `path.Ext` finds something. -/
def hasExtension (relative : Bytes) : Bool :=
  (relative.reverse.takeWhile fun b => b ≠ slash).contains ascii.dot

/-- `openRequestedWebFile`. -/
def openRequestedWebFile (requestPath relative : Bytes) (isPublic : Bool) : WebAnswer :=
  match openWebFile server relative with
  | some (candidate, contents) => .served relative candidate contents
  | none =>
    if isPublic = false ∧ appPath ++ [slash] <+: requestPath ∧ hasExtension relative = false then
      match openWebFile server appHtml with
      | some (candidate, contents) => .served appHtml candidate contents
      | none => .unavailable
    else if relative = indexHtml ∨ relative = appHtml then .unavailable
    else .notFound

/-- `handleStatic`, but for the headers of its answers and what is written into the pages. -/
def handleStatic : WebAnswer :=
  if request.method = .other then .methodNotAllowed
  else
    let requestPath := clean ascii (slash :: request.urlPath)
    match resolveWebRequest server request requestPath with
    | .file relative isPublic => openRequestedWebFile server requestPath relative isPublic
    | .redirect returnTo => .redirect returnTo

end

/-! ## Which file a request is for -/

/-- The names of the files that anybody is served. -/
def publicNames : List Bytes := publicWebFiles.map Prod.snd

/-- The request comes from who may see the file. -/
def MaySee (server : WebServer) (request : WebRequest) (relative : Bytes) : Prop :=
  relative ∈ publicNames ∨ signedIn server request = true ∨
    relative = appHtml ∧ deletionCommitted server request = true

section
variable {server : WebServer} {request : WebRequest}
  {requestPath relative candidate contents : Bytes} {isPublic : Bool} {root name : List Bytes}

theorem isName_publicNames : ∀ relative ∈ publicNames, IsName ascii relative := by
  decide +kernel

theorem isName_appHtml : IsName ascii appHtml := by
  decide +kernel

theorem publicWebFile_root : publicWebFile [slash] = some indexHtml := by
  decide +kernel

theorem mem_publicNames (h : publicWebFile requestPath = some relative) :
    relative ∈ publicNames :=
  List.mem_map_of_mem (f := Prod.snd) (Library.OrderedMaps.mem_of_lookup h)

/-- What a request is resolved to, has a path of names. -/
structure Resolves (server : WebServer) (request : WebRequest) (relative : Bytes)
    (isPublic : Bool) (name : List Bytes) : Prop where
  nonempty : name ≠ []
  isName : ∀ segment ∈ name, IsName ascii segment
  written : relative = join ascii name
  maySee : MaySee server request relative
  known : isPublic = false →
    signedIn server request = true ∨ deletionCommitted server request = true

theorem Resolves.single (hname : IsName ascii relative) (hsee : MaySee server request relative)
    (hknown : isPublic = false →
      signedIn server request = true ∨ deletionCommitted server request = true) :
    Resolves server request relative isPublic [relative] where
  nonempty := List.cons_ne_nil _ _
  isName := List.forall_mem_singleton.mpr hname
  written := rfl
  maySee := hsee
  known := hknown

theorem resolveWebRequest_file (hname : ∀ segment ∈ name, IsName ascii segment)
    (hpath : requestPath = absolute ascii name)
    (h : resolveWebRequest server request requestPath = .file relative isPublic) :
    ∃ name, Resolves server request relative isPublic name := by
  unfold resolveWebRequest at h
  split at h
  next relative hpublic =>
    cases h
    have hmem := mem_publicNames hpublic
    exact ⟨_, .single (isName_publicNames _ hmem) (.inl hmem) fun hfalse => by cases hfalse⟩
  next hprivate =>
    split at h
    next hsigned =>
      split at h
      next =>
        cases h
        exact ⟨_, .single isName_appHtml (.inr (.inl hsigned)) fun _ => .inl hsigned⟩
      next =>
        cases h
        subst hpath
        refine ⟨name, ?_, hname, rfl, .inr (.inl hsigned), fun _ => .inl hsigned⟩
        intro hempty
        subst hempty
        have hroot : publicWebFile (absolute ascii []) = some indexHtml := publicWebFile_root
        rw [hroot] at hprivate
        cases hprivate
    next =>
      split at h
      next hdeleted =>
        cases h
        exact ⟨_, .single isName_appHtml (.inr (.inr ⟨rfl, hdeleted.2⟩)) fun _ => .inr hdeleted.2⟩
      next =>
        dsimp only at h
        split at h
        · cases h
        · cases h

/-- Below a web root that is not the root of the file system, the file of a path is opened;
below that one, none is. -/
theorem openWebFile_iff (hroot : ∀ segment ∈ root, IsName ascii segment)
    (hclean : clean ascii server.webRoot = absolute ascii root)
    (hname : ∀ segment ∈ name, IsName ascii segment) (hne : name ≠ []) :
    openWebFile server (join ascii name) = some (candidate, contents) ↔
      root ≠ [] ∧ candidate = absolute ascii (root ++ name) ∧
        server.regularFile candidate = some contents := by
  have hbelow := below_absolute hroot hname
  unfold openWebFile
  rw [hclean]
  dsimp only
  rw [hbelow]
  by_cases hempty : root = []
  · obtain ⟨c, rest, hjoin, hc⟩ := join_head hname hne
    have hrefused : absolute ascii (root ++ name) ≠ absolute ascii root ∧
        ¬ absolute ascii root ++ [slash] <+: absolute ascii (root ++ name) := by
      subst hempty
      rw [List.nil_append, absolute, absolute, hjoin]
      constructor
      · intro h
        cases h
      · intro h
        have hhead := (List.cons_prefix_cons.mp h).2
        exact hc (List.cons_prefix_cons.mp hhead).1.symm
    rw [if_pos hrefused]
    constructor
    · intro h
      cases h
    · intro h
      exact absurd hempty h.1
  · have hallowed : absolute ascii root ++ [slash] <+: absolute ascii (root ++ name) := by
      rw [absolute_append hempty hne]
      exact ⟨join ascii name, by rw [List.append_assoc]; rfl⟩
    rw [if_neg fun h => h.2 hallowed, Option.map_eq_some_iff]
    constructor
    · intro h
      obtain ⟨contents, hfile, hpair⟩ := h
      cases hpair
      exact ⟨hempty, rfl, hfile⟩
    · intro h
      obtain ⟨-, rfl, hfile⟩ := h
      exact ⟨contents, hfile, rfl⟩

/-- What was served is a file below the web root. -/
structure Confined (server : WebServer) (request : WebRequest) (root : List Bytes)
    (relative candidate contents : Bytes) (name : List Bytes) : Prop where
  nonempty : name ≠ []
  isName : ∀ segment ∈ name, IsName ascii segment
  written : relative = join ascii name
  below : candidate = absolute ascii (root ++ name)
  read : server.regularFile candidate = some contents
  maySee : MaySee server request relative

theorem Resolves.confined (h : Resolves server request relative isPublic name)
    (hroot : ∀ segment ∈ root, IsName ascii segment)
    (hclean : clean ascii server.webRoot = absolute ascii root)
    (hopen : openWebFile server relative = some (candidate, contents)) :
    Confined server request root relative candidate contents name := by
  rw [h.written, openWebFile_iff hroot hclean h.isName h.nonempty] at hopen
  exact ⟨h.nonempty, h.isName, h.written, hopen.2.1, hopen.2.2, h.maySee⟩

theorem openRequestedWebFile_served (h : Resolves server request relative isPublic name)
    (hroot : ∀ segment ∈ root, IsName ascii segment)
    (hclean : clean ascii server.webRoot = absolute ascii root) {served : Bytes}
    (hserved : openRequestedWebFile server requestPath relative isPublic =
      .served served candidate contents) :
    ∃ name, Confined server request root served candidate contents name := by
  unfold openRequestedWebFile at hserved
  split at hserved
  next hopen =>
    cases hserved
    exact ⟨name, h.confined hroot hclean hopen⟩
  next =>
    split at hserved
    next hfallback =>
      split at hserved
      next hopen =>
        cases hserved
        have hknown := h.known hfallback.1
        have happ : Resolves server request appHtml isPublic [appHtml] :=
          .single isName_appHtml (.inr (hknown.imp_right fun h => ⟨rfl, h⟩)) fun _ => hknown
        exact ⟨_, happ.confined hroot hclean hopen⟩
      next => cases hserved
    next =>
      split at hserved
      · cases hserved
      · cases hserved

/-! ## The file of its own path -/

/-- A request of whoever is signed in, for a file that has no other path. -/
structure Asks (server : WebServer) (request : WebRequest) (name : List Bytes) : Prop where
  method : request.method ≠ .other
  signedIn : signedIn server request = true
  path : names ascii request.urlPath = name
  nonempty : name ≠ []
  notPublic : publicWebFile (absolute ascii name) = none
  notApp : absolute ascii name ≠ appPath

theorem clean_urlPath : clean ascii (slash :: request.urlPath) =
    absolute ascii (names ascii request.urlPath) :=
  clean_slash

theorem Asks.served (h : Asks server request name) (hroot : ∀ segment ∈ root, IsName ascii segment)
    (hclean : clean ascii server.webRoot = absolute ascii root) (hne : root ≠ [])
    (hfile : server.regularFile (absolute ascii (root ++ name)) = some contents) :
    handleStatic server request =
      .served (join ascii name) (absolute ascii (root ++ name)) contents := by
  have hname : ∀ segment ∈ name, IsName ascii segment := by
    rw [← h.path]
    exact isName_names
  have hresolve : resolveWebRequest server request (absolute ascii name) =
      .file (join ascii name) false := by
    unfold resolveWebRequest
    rw [h.notPublic]
    dsimp only
    rw [if_pos h.signedIn, if_neg h.notApp]
    rfl
  have hopen := (openWebFile_iff hroot hclean hname h.nonempty).mpr ⟨hne, rfl, hfile⟩
  unfold handleStatic
  rw [if_neg h.method, clean_urlPath, h.path]
  dsimp only
  rw [hresolve]
  dsimp only
  unfold openRequestedWebFile
  rw [hopen]

/-! ## What a stranger can tell -/

/-- The answer to a stranger depends on the public files alone. -/
theorem handleStatic_stranger {files : Bytes → Option Bytes}
    (hsigned : signedIn server request = false)
    (hdeleted : deletionCommitted server request = false)
    (hpublic : ∀ relative ∈ publicNames,
      files (below ascii (clean ascii server.webRoot) relative) =
        server.regularFile (below ascii (clean ascii server.webRoot) relative)) :
    handleStatic { server with regularFile := files } request = handleStatic server request := by
  have hresolve : ∀ requestPath, resolveWebRequest { server with regularFile := files } request
      requestPath = resolveWebRequest server request requestPath := fun _ => rfl
  unfold handleStatic
  dsimp only
  rw [hresolve]
  split
  · rfl
  split
  next relative isPublic hfile =>
    obtain ⟨rfl, hmem⟩ : isPublic = true ∧ relative ∈ publicNames := by
      unfold resolveWebRequest at hfile
      rw [hsigned, hdeleted] at hfile
      split at hfile
      next hlookup =>
        cases hfile
        exact ⟨rfl, mem_publicNames hlookup⟩
      next =>
        rw [if_neg Bool.false_ne_true, if_neg fun h => Bool.false_ne_true h.2] at hfile
        dsimp only at hfile
        split at hfile
        · cases hfile
        · cases hfile
    have hopen : openWebFile { server with regularFile := files } relative =
        openWebFile server relative := by
      unfold openWebFile
      dsimp only
      rw [hpublic relative hmem]
    unfold openRequestedWebFile
    rw [hopen]
    split
    · rfl
    · simp only [Bool.true_eq_false, false_and, if_false]
  next => rfl

end

/-- Every answer with a file is with one below the web root, for whoever may see it; whoever
is signed in is given each file below it for every path that leads there; and what is not
public makes no difference to anybody else. -/
theorem static_files {server : WebServer} (habsolute : server.webRoot.head? = some slash) :
    ∃ root, (∀ segment ∈ root, IsName ascii segment) ∧
      clean ascii server.webRoot = absolute ascii root ∧
      ∀ request,
        (∀ relative candidate contents,
          handleStatic server request = .served relative candidate contents →
            ∃ name, Confined server request root relative candidate contents name) ∧
        (∀ name contents, Asks server request name → root ≠ [] →
          server.regularFile (absolute ascii (root ++ name)) = some contents →
            handleStatic server request =
              .served (join ascii name) (absolute ascii (root ++ name)) contents) ∧
        (signedIn server request = false → deletionCommitted server request = false →
          ∀ files : Bytes → Option Bytes, (∀ relative ∈ publicNames,
            files (below ascii (clean ascii server.webRoot) relative) =
              server.regularFile (below ascii (clean ascii server.webRoot) relative)) →
            handleStatic { server with regularFile := files } request =
              handleStatic server request) := by
  obtain ⟨path, hpath⟩ : ∃ path, server.webRoot = slash :: path := by
    cases hroot : server.webRoot with
    | nil =>
      rw [hroot] at habsolute
      cases habsolute
    | cons c path =>
      rw [hroot] at habsolute
      cases habsolute
      exact ⟨path, rfl⟩
  have hclean : clean ascii server.webRoot = absolute ascii (names ascii path) := by
    rw [hpath]
    exact clean_slash
  refine ⟨names ascii path, isName_names, hclean, fun request => ⟨?_, ?_, ?_⟩⟩
  · intro relative candidate contents hserved
    unfold handleStatic at hserved
    split at hserved
    · cases hserved
    dsimp only at hserved
    split at hserved
    next hfile =>
      obtain ⟨name, hresolves⟩ := resolveWebRequest_file isName_names clean_urlPath hfile
      exact openRequestedWebFile_served hresolves isName_names hclean hserved
    next => cases hserved
  · intro name contents hasks hne hfile
    exact hasks.served isName_names hclean hne hfile
  · intro hsigned hdeleted files hpublic
    exact handleStatic_stranger hsigned hdeleted hpublic

def webUser : String := "abcdefghijklmnopqrstuvwxyz-_0123"

/-- An account with a session of a browser. -/
def webAccount : AccountDisk :=
  { firstCreated with
    file := some { firstFile with
      tables := { UserTables.initial with
        profile := some ⟨webUser, "issuer", "subject", "mail", "name", ""⟩
        authSessions := [⟨"session", .web, none, "web", some 7, 0, 10, none, none⟩]
        authTokens := [⟨1, "session", .web, 0, 10, none, none⟩] } } }

/-- A web root with a page, next to a file that is not below it. -/
def webServer : WebServer where
  webRoot := bytesOf "/srv/web/"
  regularFile path :=
    if path = bytesOf "/srv/web/app.js" then some [1]
    else if path = bytesOf "/srv/app.js" then some [2]
    else none
  sha256 _ := 1
  disks _ := webAccount
  removed := .initial

/-- A request that tries to leave the web root. -/
def leaving (cookie : Option Bytes) : WebRequest where
  method := .get
  urlPath := bytesOf "../x//../../app.js"
  requestURI := bytesOf "/../x//../../app.js"
  headers := ⟨[], cookie⟩
  now := ⟨0, 0⟩

def webToken : Bytes := bytesOf webUser ++ dot :: encodeToString (List.replicate 32 0)

/-- With a session it is answered with the file below the web root, and without one as if
that file were not there. -/
theorem static_files_leaving :
    handleStatic webServer (leaving (some webToken)) =
        .served (bytesOf "app.js") (bytesOf "/srv/web/app.js") [1] ∧
      handleStatic { webServer with regularFile := fun _ => none } (leaving none) =
        handleStatic webServer (leaving none) := by
  have habsolute : webServer.webRoot.head? = some slash := by
    decide +kernel
  obtain ⟨root, hroot, hclean, hfiles⟩ := static_files habsolute
  have hnames : ∀ segment ∈ [bytesOf "srv", bytesOf "web"], IsName ascii segment := by
    decide +kernel
  have hwebRoot : clean ascii webServer.webRoot =
      absolute ascii [bytesOf "srv", bytesOf "web"] := by
    decide +kernel
  obtain rfl : root = [bytesOf "srv", bytesOf "web"] := by
    rw [hclean] at hwebRoot
    exact join_injective hroot hnames (List.tail_eq_of_cons_eq hwebRoot)
  constructor
  · have hasks : Asks webServer (leaving (some webToken)) [bytesOf "app.js"] :=
      ⟨by decide, by decide +kernel, by decide +kernel, List.cons_ne_nil _ _, by decide +kernel,
        by decide +kernel⟩
    have hcandidate : absolute ascii ([bytesOf "srv", bytesOf "web"] ++ [bytesOf "app.js"]) =
        bytesOf "/srv/web/app.js" := by
      decide +kernel
    have hserved := (hfiles (leaving (some webToken))).2.1 [bytesOf "app.js"] [1] hasks
      (List.cons_ne_nil _ _) (by rw [hcandidate]; decide +kernel)
    rw [hcandidate] at hserved
    exact hserved
  · refine (hfiles (leaving none)).2.2 (by decide +kernel) (by decide +kernel) _ ?_
    decide +kernel

end Pomodorough.Server.WebFiles
