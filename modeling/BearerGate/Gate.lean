import BearerGate.Claims
import BearerGate.Journal
import BearerGate.Token.Bearer
import BearerGate.Token.Header
import BearerGate.KeyServer
import BearerGate.Url

namespace BearerGate

/-- The time of day in seconds, and a time that only runs forward. -/
structure Clock where
  now : Int
  elapsed : Rat
  deriving DecidableEq

structure Snapshot where
  keys : KeySet
  taken : Rat
  deriving DecidableEq

abbrev Cache := Option Snapshot

/-- A lifetime of zero or less keeps no keys. -/
structure Gate where
  issuer : Issuer
  timeout : Option Number
  lifetime : Int

structure Run (α : Type) where
  result : Except Failure α
  cache : Cache
  requests : List Text
  journal : Journal
  deriving DecidableEq

namespace Gate

def fresh? (g : Gate) (clock : Clock) (cache : Cache) : Option KeySet :=
  match cache with
  | none => none
  | some s =>
    if 0 < g.lifetime ∧ clock.elapsed - s.taken < (g.lifetime : Rat) then some s.keys else none

/-- A time limit of nothing is over before the download starts. -/
def mayStart (g : Gate) : Bool :=
  match g.timeout with
  | none => true
  | some t => !t.atMostZero

def timeoutText (g : Gate) : Text :=
  match g.timeout with
  | none => Text.ofString "None"
  | some t => t.text

def note (level : Level) (parts : List Text) : Entry := ⟨level, .keySet, parts.flatten⟩

def fetchingNote (g : Gate) : Entry :=
  note .debug [Text.ofString "Fetching JWKS from ", g.issuer.keySetUrl]

def timedOutNote (g : Gate) : Entry :=
  note .warning [Text.ofString "JWKS fetch from ", g.issuer.keySetUrl,
    Text.ofString " timed out after ", g.timeoutText, Text.ofString "s"]

/-- The record goes on with a colon and the text of the failure, which is left out here. -/
def failedNote (g : Gate) : Entry :=
  note .warning [Text.ofString "JWKS fetch from ", g.issuer.keySetUrl, Text.ofString " failed"]

/-- Here too the text of the failure is left out. -/
def invalidNote (g : Gate) : Entry :=
  note .warning [Text.ofString "JWKS response from ", g.issuer.keySetUrl,
    Text.ofString " is invalid"]

/-- A hang outlasts every limit, and no answer without a host is accepted. -/
def ending (g : Gate) (target : Target) (server : KeyServer) : Ending :=
  match server with
  | .hangs => if g.timeout.isSome then .timedOut else .faulted .unanswered
  | .fails .timedOut => .timedOut
  | .fails .transport => .refused
  | .fails .invalid => .invalid
  | .fails (.unforeseen kind) => .faulted (.unforeseen kind)
  | .answers status body =>
    if !target.hasHost then .invalid
    else if !KeyServer.isSuccess status then .refused
    else match KeySet.ofBody body with
      | .ok keys => .keys keys
      | .error .invalid => .invalid
      | .error .tooDeep => .faulted .tooDeep

def settle (g : Gate) : Ending → Except Failure KeySet × Journal
  | .keys keys => (.ok keys, [])
  | .timedOut => (.error (.rejected .keysUnavailable), [g.timedOutNote])
  | .refused => (.error (.rejected .keysUnavailable), [g.failedNote])
  | .invalid => (.error (.rejected .keysUnavailable), [g.invalidNote])
  | .faulted f => (.error (.faulted f), [])

def keep (g : Gate) (clock : Clock) (keys : KeySet) (cache : Cache) : Cache :=
  if 0 < g.lifetime then some ⟨keys, clock.elapsed⟩ else cache

/-- Only a download that gives keys changes the cache. -/
def download (g : Gate) (clock : Clock) (server : KeyServer) (cache : Cache) : Run KeySet :=
  if !g.mayStart then
    { result := .error (.rejected .keysUnavailable)
      cache := cache
      requests := []
      journal := [g.timedOutNote] }
  else
    match Target.ofText? g.issuer.keySetUrl with
    | none =>
      { result := .error (.faulted .invalidUrl)
        cache := cache
        requests := []
        journal := [g.fetchingNote] }
    | some target =>
      let (result, notes) := g.settle (g.ending target server)
      { result := result
        cache := match result with
          | .ok keys => g.keep clock keys cache
          | .error _ => cache
        requests := [target.text]
        journal := g.fetchingNote :: notes }

def fetch (g : Gate) (clock : Clock) (server : KeyServer) (force : Bool) (cache : Cache) :
    Run KeySet :=
  match g.fresh? clock cache, force with
  | some keys, false => { result := .ok keys, cache := cache, requests := [], journal := [] }
  | _, _ => g.download clock server cache

/-- A fetch that is given up as soon as its request is under way. -/
def fetchCancelled (g : Gate) (clock : Clock) (force : Bool) (cache : Cache) : Run KeySet :=
  match g.fresh? clock cache, force with
  | some keys, false => { result := .ok keys, cache := cache, requests := [], journal := [] }
  | _, _ =>
    let run := g.download clock .hangs cache
    if run.requests.isEmpty then run
    else { run with result := .error (.faulted .cancelled), journal := [g.fetchingNote] }

def refreshingNote (kid : Text) : Entry :=
  ⟨.info, .gate, Text.ofString "Refreshing JWKS after miss for kid " ++ kid⟩

def findKey (kid : Text) (keys : KeySet) : Except Failure PublishedKey :=
  match keys.find? kid with
  | some key => .ok key
  | none => .error (.rejected .keyNotPublished)

/-- A fresh set that lacks the key may be older than it, so the set is downloaded once more. -/
def resolveKey (g : Gate) (clock : Clock) (server : KeyServer) (kid : Text) (cache : Cache) :
    Run PublishedKey :=
  let kept := (g.fresh? clock cache).isSome
  let first := g.fetch clock server false cache
  match first.result with
  | .error e => { first with result := .error e }
  | .ok keys =>
    match findKey kid keys, kept with
    | .error _, true =>
      let second := g.fetch clock server true first.cache
      { result := second.result.bind (findKey kid)
        cache := second.cache
        requests := first.requests ++ second.requests
        journal := first.journal ++ refreshingNote kid :: second.journal }
    | found, _ => { first with result := found }

def failedAuthenticationNote (r : Rejection) : Entry :=
  ⟨.warning, .gate,
    Text.ofString "Authentication failed: " ++ r.name ++ Text.ofString ": " ++ r.cause⟩

def verifiedPayload (g : Gate) (clock : Clock) (server : KeyServer) (authorization : Option Text)
    (cache : Cache) : Run Payload :=
  match Bearer.token? authorization with
  | none =>
    { result := .error (.rejected .missingCredentials)
      cache := cache
      requests := []
      journal := [] }
  | some token =>
    match TokenHeader.ofToken token with
    | .error r => { result := .error (.rejected r), cache := cache, requests := [], journal := [] }
    | .ok header =>
      let run := g.resolveKey clock server header.kid cache
      { run with
        result := run.result.bind fun key => Verification.verify token key g.issuer clock.now }

/-- Every rejection leaves a record, a fault leaves none. -/
def authenticate (g : Gate) (clock : Clock) (server : KeyServer) (authorization : Option Text)
    (cache : Cache) : Run Claims :=
  let run := g.verifiedPayload clock server authorization cache
  match run.result with
  | .ok payload => { run with result := (Claims.ofPayload payload).mapError .faulted }
  | .error (.rejected r) =>
    { run with
      result := .error (.rejected r)
      journal := run.journal ++ [failedAuthenticationNote r] }
  | .error (.faulted f) => { run with result := .error (.faulted f) }

end Gate

end BearerGate
