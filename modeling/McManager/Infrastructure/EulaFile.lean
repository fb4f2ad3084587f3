import McManager.Domain.Values
import McManager.Services.RconProvision

/-! `eula.txt`: what the launch gate reads in it, and what the manager writes there. -/

namespace McManager.Eula

open Framework Provision

/-- `str.lower`; only ASCII letters come to ASCII letters of the words compared here. -/
def lower (text : Text) : Text := text.map Char.toLower

/-- What a line says about the EULA. -/
def eulaValue (line : Text) : Option Text :=
  match parseLine line with
  | some (key, value) => if lower key = "eula".toList then some value else none
  | none => none

def saysTrue (value : Text) : Bool := lower value = "true".toList

/-- The first line about the EULA decides. -/
def setting (text : Text) : Option Text := (splitlines text).findSome? eulaValue

/-- `detect_eula`, of what is in the file if there is one. -/
def detectEula : Option (List UInt8) → EulaState
  | none => .notPresent
  | some bytes =>
    match setting (readText bytes) with
    | some value => if saysTrue value then .accepted else .unaccepted
    | none => .unaccepted

/-- The lines of a file, each with its end. -/
def written (lines : List Text) : Text := lines.flatMap (· ++ ['\n'])

def notice : List Text :=
  ["# By changing the setting below to TRUE you are indicating your agreement to our EULA.".toList,
    "# https://aka.ms/MinecraftEULA".toList]

/-- The lines that name the operator. -/
def signature (operatorId : Option String) : List Text :=
  match operatorId.filter (· ≠ "") with
  | some operatorId =>
    ["# Explicitly accepted via mcmanager audit pipeline".toList,
      "# Accepted by Operator: ".toList ++ operatorId.toList]
  | none => []

/-- `provision_eula_file`, where there is no file yet. -/
def provisioned : List UInt8 :=
  Utf8.encode (String.ofList (written (notice ++ ["eula=false".toList])))

/-- `write_eula_acceptance`. -/
def acceptance (operatorId : Option String) : List UInt8 :=
  Utf8.encode (String.ofList (written (notice ++ signature operatorId ++ ["eula=true".toList])))

/-- A write that fails leaves what has come to the disk so far. -/
def reaching (cut : Option Nat) (bytes : List UInt8) : List UInt8 :=
  match cut with
  | some k => bytes.take k
  | none => bytes

/-- What happens to the file of a world: the manager provisions it or accepts for an operator, or
someone else writes or removes it. -/
inductive Event
  | provision (cut : Option Nat)
  | accept (operatorId : Option String) (cut : Option Nat)
  | outside (file : Option (List UInt8))
  deriving DecidableEq, Repr

def Event.step (file : Option (List UInt8)) : Event → Option (List UInt8)
  | provision cut => some (file.getD (reaching cut provisioned))
  | accept operatorId cut => some (reaching cut (acceptance operatorId))
  | outside file' => file'

def run (events : List Event) (file : Option (List UInt8)) : Option (List UInt8) :=
  events.foldl Event.step file

/-- The later lines of an operator id, if it has any, do not turn the EULA off. -/
def harmless (operatorId : String) : Bool :=
  (((split boundary (newlines '\r' '\n' operatorId.toList)).tail).findSome? eulaValue).all saysTrue

/-- Whether the EULA is accepted after an event, when `accepted` says whether it was before. -/
def Event.mark (accepted : Bool) : Event → Bool
  | provision _ => accepted
  | accept operatorId none => operatorId.all harmless
  -- Of a write that breaks off the line that accepts has to be there, but not its end.
  | accept operatorId (some k) => decide ((acceptance operatorId).length ≤ k + 1)
  | outside file => detectEula file = .accepted

/-- Only a write that breaks off asks for an id on one line. -/
def Event.plain : Event → Bool
  | accept (some operatorId) (some _) => !operatorId.toList.any boundary
  | _ => true

end McManager.Eula
