import Rollout.Config.Check
import Rollout.Document.Json

/-!
# Configurations as documents

How configurations, backends and the way to the targets are written and read. Every field of a
configuration is written; a field that has a standard value may be left out.
-/

namespace Rollout

open Document

/-- Reads an address. -/
def IpAddr.decode : Decoder IpAddr := fun manner node => do
  match IpAddr.read? (← Decode.textOf "IP address" manner node) with
  | some ip => pure ip
  | none => fail .notAnAddress

namespace Backend

/-- The fields of a backend read so far. -/
structure Draft where
  ip : Option IpAddr
  port : Option UInt16

/-- How a backend is read. -/
def record : Record Draft Backend where
  name := "Backend"
  fields := [
    .of "ip" true IpAddr.decode (·.ip) fun d x => ⟨some x, d.port⟩,
    .of "port" true Decode.word16 (·.port) fun d x => ⟨d.ip, some x⟩]
  empty := ⟨none, none⟩
  finish d := do return ⟨← needed "ip" d.ip, ← needed "port" d.port⟩

/-- A backend as a document. -/
def value (b : Backend) : Value :=
  .object [("ip", .string b.ip.text), ("port", .nat b.port.toNat)]

end Backend

namespace SshAccess

/-- The fields of an access read so far. -/
structure Draft where
  user : Option (Option String)
  port : Option UInt16
  identity : Option (Option String)

/-- How an access is read. -/
def record : Record Draft SshAccess where
  name := "SshConfig"
  fields := [
    .of "User" false (Decode.optional Decode.text) (·.user) fun d x => ⟨some x, d.port, d.identity⟩,
    .of "Port" false Decode.word16 (·.port) fun d x => ⟨d.user, some x, d.identity⟩,
    .of "Identity" false (Decode.optional Decode.path) (·.identity) fun d x =>
      ⟨d.user, d.port, some x⟩]
  empty := ⟨none, none, none⟩
  finish d := .ok ⟨d.user.getD none, d.port.getD standardPort, d.identity.getD none⟩

/-- The members of an access as a document. -/
def members (a : SshAccess) : List (String × Value) :=
  [("User", .optional a.user), ("Port", .nat a.port.toNat), ("Identity", .optional a.identity)]

end SshAccess

namespace Transport

/-- The kinds of transport. -/
inductive Kind where
  | ssh
  | onMachine
deriving DecidableEq, Repr

/-- The names of the kinds. -/
def kinds : List (String × Kind) := [("Ssh", .ssh), ("Local", .onMachine)]

/-- The member that holds the kind. -/
def tag : String := "Kind"

/-- Takes in the members besides the kind: the kind, if it was there, and the other members. -/
def gather (manner : Manner) :
    Members → Option Kind → Members → Except DecodeError (Option Kind × Members)
  | .closed, kind, others => .ok (kind, others)
  | .broken read _, _, _ => failGrammar read
  | .unnamed _, _, _ => failGrammar .keyNotString
  | .dangling (.error fault) _, _, _ => failGrammar fault
  | .dangling (.ok key) fault, kind, _ =>
    if key = tag ∧ kind.isSome then fail (.duplicateField tag) else failGrammar fault
  | .member (.error fault) _ _, _, _ => failGrammar fault
  | .member (.ok key) value rest, kind, others =>
    if key = tag then
      if kind.isSome then fail (.duplicateField tag)
      else do
        let kind ← Decode.variantName kinds manner value
        gather manner rest (some kind) others
    else do
      Decode.takenIn manner value
      let (kind, others) ← gather manner rest kind others
      pure (kind, .member (.ok key) value others)

/-- The transport of a kind, from what was given besides the kind. -/
def ofKind (kind : Kind) (others : Node) : Except DecodeError Transport :=
  match kind with
  | .ssh => (SshAccess.record.decode .buffered others).map .ssh
  | .onMachine =>
    match others with
    | .array items => do
      Record.surplus .buffered 0 items
      pure .onMachine
    | _ => .ok .onMachine

/-- Reads a transport: the kind stands among the members, or in front of the other items. -/
def decode : Decoder Transport := fun manner node =>
  match node with
  | .object members => do
    let manner ← manner.deeper
    match ← gather manner members none .closed with
    | (none, _) => fail (.missingField tag)
    | (some kind, others) => ofKind kind (.object others)
  | .array items => do
    let manner ← manner.deeper
    match items with
    | .closed => fail (.missingField tag)
    | .broken read _ => failGrammar read
    | .item node rest => do
      let kind ← Decode.variantName kinds manner node
      Decode.itemsTakenIn manner rest
      ofKind kind (.array rest)
  | node => fail (mismatch "internally tagged enum Transport" node)

/-- A transport as a document. -/
def value : Transport → Value
  | ssh access => .object ((tag, .string "Ssh") :: access.members)
  | onMachine => .object [(tag, .string "Local")]

end Transport

namespace Config

/-- The fields of a configuration read so far. -/
structure Draft where
  concurrency : Option UInt64
  canaryNum : Option UInt64
  maxFailures : Option UInt32
  src : Option String
  lb : Option String
  pattern : Option String
  backends : Option (List String)
  dst : Option (Option String)
  args : Option (List String)
  healthPath : Option String
  transport : Option Transport
  preconditionTimeoutSecs : Option UInt64
  actionTimeoutSecs : Option UInt64
  canaryCooldownSecs : Option UInt64
  retryPasses : Option UInt32
  retryDelaySecs : Option UInt64

/-- No field read yet. -/
def Draft.empty : Draft :=
  ⟨none, none, none, none, none, none, none, none, none, none, none, none, none, none, none, none⟩

/-- How a configuration is read. -/
def record : Record Draft Config where
  name := "RolloutConfig"
  fields := [
    .of "Concurrency" true Decode.count (·.concurrency) fun d x => { d with concurrency := some x },
    .of "CanaryNum" false Decode.count (·.canaryNum) fun d x => { d with canaryNum := some x },
    .of "MaxFailures" false Decode.word32 (·.maxFailures) fun d x =>
      { d with maxFailures := some x },
    .of "Src" true Decode.path (·.src) fun d x => { d with src := some x },
    .of "LB" true Decode.text (·.lb) fun d x => { d with lb := some x },
    .of "Pattern" true Decode.text (·.pattern) fun d x => { d with pattern := some x },
    .of "Backends" true (Decode.list Decode.text) (·.backends) fun d x =>
      { d with backends := some x },
    .of "Dst" false (Decode.optional Decode.text) (·.dst) fun d x => { d with dst := some x },
    .of "Args" false (Decode.list Decode.text) (·.args) fun d x => { d with args := some x },
    .of "HealthPath" false Decode.text (·.healthPath) fun d x => { d with healthPath := some x },
    .of "Transport" false Transport.decode (·.transport) fun d x =>
      { d with transport := some x },
    .of "PreconditionTimeoutSecs" false Decode.seconds (·.preconditionTimeoutSecs) fun d x =>
      { d with preconditionTimeoutSecs := some x },
    .of "ActionTimeoutSecs" false Decode.seconds (·.actionTimeoutSecs) fun d x =>
      { d with actionTimeoutSecs := some x },
    .of "CanaryCooldownSecs" false Decode.seconds (·.canaryCooldownSecs) fun d x =>
      { d with canaryCooldownSecs := some x },
    .of "RetryPasses" false Decode.word32 (·.retryPasses) fun d x =>
      { d with retryPasses := some x },
    .of "RetryDelaySecs" false Decode.seconds (·.retryDelaySecs) fun d x =>
      { d with retryDelaySecs := some x }]
  empty := .empty
  finish d := do
    return {
      concurrency := ← needed "Concurrency" d.concurrency
      canaryNum := d.canaryNum.getD 0
      maxFailures := d.maxFailures.getD 0
      src := ← needed "Src" d.src
      lb := ← needed "LB" d.lb
      pattern := ← needed "Pattern" d.pattern
      backends := ← needed "Backends" d.backends
      dst := d.dst.getD none
      args := d.args.getD []
      healthPath := d.healthPath.getD standardHealthPath
      transport := d.transport.getD (.ssh .standard)
      preconditionTimeoutSecs := d.preconditionTimeoutSecs.getD standardPreconditionTimeout
      actionTimeoutSecs := d.actionTimeoutSecs.getD standardActionTimeout
      canaryCooldownSecs := d.canaryCooldownSecs.getD standardCanaryCooldown
      retryPasses := d.retryPasses.getD standardRetryPasses
      retryDelaySecs := d.retryDelaySecs.getD standardRetryDelay }

/-- A configuration as a document. -/
def value (c : Config) : Value :=
  .object [
    ("Concurrency", .nat c.concurrency.toNat),
    ("CanaryNum", .nat c.canaryNum.toNat),
    ("MaxFailures", .nat c.maxFailures.toNat),
    ("Src", .string c.src),
    ("LB", .string c.lb),
    ("Pattern", .string c.pattern),
    ("Backends", .strings c.backends),
    ("Dst", .optional c.dst),
    ("Args", .strings c.args),
    ("HealthPath", .string c.healthPath),
    ("Transport", c.transport.value),
    ("PreconditionTimeoutSecs", .nat c.preconditionTimeoutSecs.toNat),
    ("ActionTimeoutSecs", .nat c.actionTimeoutSecs.toNat),
    ("CanaryCooldownSecs", .nat c.canaryCooldownSecs.toNat),
    ("RetryPasses", .nat c.retryPasses.toNat),
    ("RetryDelaySecs", .nat c.retryDelaySecs.toNat)]

end Config

end Rollout
