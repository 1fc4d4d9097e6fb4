import OtelFleet.Data.CaseMap
import OtelFleet.Data.Lru
import OtelFleet.Semantics.Run

/-! # The tenantauth extension

The gateway validates the API key of a request with the control plane, and keeps the
answers in a cache.  Requests are served concurrently: between the accesses to the
cache, which a mutex guards, and around the call to the control plane, others act.

Times and durations are in nanoseconds.
-/

namespace OtelFleet.Collector.TenantAuth

open Data Semantics

structure Response where
  valid : Bool
  customerID : String := ""
  clientID : String := ""
  cacheTtlSeconds : UInt32 := 0
  rateLimitItemsPerSec : UInt32 := 0

/-- The identity resolved for a validated API key; a limit of 0 is none. -/
structure AuthData where
  tenantID : String
  clientID : String
  customerID : String
  rateLimitItemsPerSec : Int

def authData (resp : Response) : AuthData where
  tenantID := resp.clientID
  clientID := resp.clientID
  customerID := resp.customerID
  rateLimitItemsPerSec := resp.rateLimitItemsPerSec.toNat

inductive CacheEntry where
  | valid (data : AuthData) (freshUntil staleUntil : Int)
  | invalid (freshUntil : Int)

abbrev KeyCache := Lru String CacheEntry

structure CacheConfig where
  ttl : Int := 30000000000
  negativeTTL : Int := 5000000000
  maxEntries : Nat := 50000
  staleIfError : Int := 900000000000

structure Env where
  text : CaseMap
  hash : String → String
  cfg : CacheConfig

def cutSpace (value : String) : Option (String × String) :=
  match value.toList.span fun c => c ≠ ' ' with
  | (_, []) => none
  | (scheme, _ :: rest) => some (String.ofList scheme, String.ofList rest)

def bearerKey (text : CaseMap) (value : String) : String :=
  match cutSpace (text.trimSpace value) with
  | some (scheme, rest) => if text.EqualFold scheme "Bearer" then text.trimSpace rest else ""
  | none => ""

def firstKey (keys : List String) : String := (keys.find? fun key => key ≠ "").getD ""

def headerValues (text : CaseMap) (name : String) (sources : List (String × List String)) : List String :=
  (sources.filter fun source => text.toLower source.1 = name).flatMap Prod.snd

/-- The key of the `Authorization` or the `X-Api-Key` header.  The headers come in the
    order in which the range over the map visits them. -/
def extractKey (text : CaseMap) (sources : List (String × List String)) : String :=
  let bearer := firstKey ((headerValues text "authorization" sources).map (bearerKey text))
  if bearer ≠ "" then bearer
  else firstKey ((headerValues text "x-api-key" sources).map text.trimSpace)

inductive Outcome where
  | ok (data : AuthData)
  | upstreamErrorStale (data : AuthData)
  | noKey
  | invalidKey
  | upstreamErrorReject (err : String)

def Outcome.accepted : Outcome → Option AuthData
  | .ok data | .upstreamErrorStale data => some data
  | .noKey | .invalidKey | .upstreamErrorReject _ => none

abbrev Reply := Except String Response

def fromCache (now : Int) : Option CacheEntry → Option Outcome
  | some (.valid data freshUntil _) => if now < freshUntil then some (.ok data) else none
  | some (.invalid freshUntil) => if now < freshUntil then some .invalidKey else none
  | none => none

/-- Without an answer, a key is accepted that was valid recently. -/
def withoutAnswer (now : Int) (err : String) : Option CacheEntry → Outcome
  | some (.valid data _ staleUntil) =>
    if now < staleUntil then .upstreamErrorStale data else .upstreamErrorReject err
  | _ => .upstreamErrorReject err

/-- The server may shorten the time for which its answer is cached.  A `uint32` of
    seconds does not overflow a duration. -/
def effectiveTTL (cfg : CacheConfig) (resp : Response) : Int :=
  let serverTTL : Int := resp.cacheTtlSeconds.toNat * 1000000000
  if resp.cacheTtlSeconds > 0 ∧ serverTTL < cfg.ttl then serverTTL else cfg.ttl

def entryOf (cfg : CacheConfig) (now : Int) (resp : Response) : CacheEntry :=
  if resp.valid then .valid (authData resp) (now + effectiveTTL cfg resp) (now + cfg.staleIfError)
  else .invalid (now + cfg.negativeTTL)

structure Validation where
  called : Nat
  answered : Nat
  reply : Reply

inductive Phase where
  | looking
  | missed
  | calling (called : Nat)
  | answered (call : Validation)
  | returned (step : Nat) (call : Option Validation) (outcome : Outcome)

structure Request where
  key : String
  now : Int
  started : Nat
  phase : Phase

def Request.returns (req : Request) (step : Nat) (call : Option Validation) (outcome : Outcome) : Request :=
  { req with phase := .returned step call outcome }

def Request.validation (req : Request) : Option Validation :=
  match req.phase with
  | .looking | .missed | .calling _ => none
  | .answered call => some call
  | .returned _ call _ => call

inductive Action where
  | look
  | call
  /-- The control plane answers, or the call fails. -/
  | answer (reply : Reply)
  /-- The answer is received and cached, or the cache is looked at again. -/
  | finish

variable (env : Env)

/-- A request that comes with these headers.  Without a key it returns at once. -/
def arrived (sources : List (String × List String)) (now : Int) (step : Nat) : Request where
  key := extractKey env.text sources
  now := now
  started := step
  phase := if extractKey env.text sources = "" then .returned step none .noKey else .looking

def received (cache : KeyCache) (req : Request) : Reply → Outcome × KeyCache
  | .error err =>
    let (found, cache) := cache.get (env.hash req.key)
    (withoutAnswer req.now err found, cache)
  | .ok resp =>
    (if resp.valid then .ok (authData resp) else .invalidKey,
      cache.put (env.hash req.key) (entryOf env.cfg req.now resp))

def Request.act (step : Nat) (cache : KeyCache) (req : Request) (action : Action) : Option (Request × KeyCache) :=
  match req.phase, action with
  | .looking, .look =>
    let (found, cache) := cache.get (env.hash req.key)
    match fromCache req.now found with
    | some outcome => some (req.returns step none outcome, cache)
    | none => some ({ req with phase := .missed }, cache)
  | .missed, .call => some ({ req with phase := .calling step }, cache)
  | .calling called, .answer reply => some ({ req with phase := .answered ⟨called, step, reply⟩ }, cache)
  | .answered call, .finish =>
    let (outcome, cache) := received env cache req call.reply
    some (req.returns step (some call) outcome, cache)
  | _, _ => none

structure Gateway where
  cache : KeyCache
  requests : List Request := []
  steps : Nat := 0

inductive Event where
  | arrive (sources : List (String × List String)) (now : Int)
  | act (req : Nat) (action : Action)

def Gateway.perform (gateway : Gateway) : Event → Option Gateway
  | .arrive sources now =>
    some { gateway with
      requests := gateway.requests ++ [arrived env sources now gateway.steps]
      steps := gateway.steps + 1 }
  | .act i action => do
    let req ← gateway.requests[i]?
    let (req, cache) ← req.act env gateway.steps gateway.cache action
    return ⟨cache, gateway.requests.set i req, gateway.steps + 1⟩

def Gateway.Step (gateway : Gateway) (event : Event) (next : Gateway) : Prop := gateway.perform env event = some next

def Gateway.idle : Gateway where
  cache := .empty env.cfg.maxEntries

end OtelFleet.Collector.TenantAuth
