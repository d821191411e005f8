import RequestAuth.Nonce

namespace RequestAuth

/-- A reading of the system clock: seconds since the epoch, before it if negative, and nanoseconds
on top of them. -/
structure Instant where
  seconds : Int
  nanoseconds : Nat
  deriving DecidableEq

def Instant.millis (instant : Instant) : UInt64 :=
  if instant.seconds < 0 then 0
  else UInt64.ofNat (instant.seconds.toNat * 1000 + instant.nanoseconds / 1000000)

inductive Level
  | debug
  | info
  | warn
  deriving DecidableEq

structure Event where
  level : Level
  message : String
  fields : List (String × String)
  deriving DecidableEq

abbrev Random := Block 24

/-- What all clients on one host share. A source of nonces is known by its place, and whoever holds
the place shares what the source hands out. -/
structure Host where
  now : Instant
  /-- The outputs of the system's generator, of which the first `randomUsed` have been used. -/
  randoms : Nat → Random
  randomUsed : Nat
  sequence : Nat
  sources : List NonceSource
  uses : Nat
  log : List Event

namespace Host

def start (now : Instant) (randoms : Nat → Random) : Host := ⟨now, randoms, 0, 0, [], 0, []⟩

def record (host : Host) (event : Event) : Host :=
  { host with log := host.log ++ [event] }

def addSource (host : Host) (source : NonceSource) : Host :=
  { host with sources := host.sources ++ [source] }

def advance (host : Host) (place : Nat) : Host :=
  { host with sources := host.sources.modify place NonceSource.advance }

def hear (host : Host) (place : Nat) (text : String) : Host :=
  { host with sources := host.sources.modify place (NonceSource.hear text) }

structure Drawn where
  nonce : String
  host : Host

def number (host : Host) (random : Bytes) : Drawn :=
  ⟨Nonce.compose random host.sequence, { host with sequence := host.sequence + 1 }⟩

def drawSystem (host : Host) : Drawn :=
  { host with randomUsed := host.randomUsed + 1 }.number (host.randoms host.randomUsed).toBytes

/-- Carries out a plan for the source at a place, which hears what its questions are answered. -/
def carryOut (answer : Option Nat → Host → Drawn) (place : Nat) :
    NonceSource.Plan → Host → Drawn
  | .give text, host => ⟨text, host⟩
  | .ask other next, host =>
    let drawn := answer other host
    carryOut answer place (next drawn.nonce) (drawn.host.hear place drawn.nonce)

/-- Draws from the source at a place below the bound, or else from the system's. A source asks only
those that were there before it. -/
def drawBelow : Nat → Option Nat → Host → Drawn
  | 0, _, host => host.drawSystem
  | bound + 1, place, host =>
    if place = some bound then
      match host.sources[bound]? with
      | none => host.drawSystem
      | some (.seeded seed drawn) =>
        (host.advance bound).number (NonceSource.seededPart seed drawn)
      | some (.custom plan drawn heard) =>
        carryOut (drawBelow bound) bound (plan drawn heard) (host.advance bound)
    else drawBelow bound place host

def draw (host : Host) (place : Option Nat) : Drawn := drawBelow host.sources.length place host

def drawAll (host : Host) : List (Option Nat) → List String
  | [] => []
  | place :: rest =>
    let drawn := host.draw place
    drawn.nonce :: drawn.host.drawAll rest

end Host

end RequestAuth
