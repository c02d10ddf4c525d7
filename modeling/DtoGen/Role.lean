namespace DtoGen

inductive Facet where
  | internal
  | wire
deriving DecidableEq, Repr, Inhabited

inductive Direction where
  | wireToInternal
  | internalToWire
deriving DecidableEq, Repr, Inhabited

/-- The side of the interface on which the generated code runs. -/
inductive Perspective where
  | client
  | server
deriving DecidableEq, Repr, Inhabited

/-- A perspective with one side of the contract: inbound values are inputs, outbound ones outputs. -/
inductive Role where
  | serverInbound
  | serverOutbound
  | clientInbound
  | clientOutbound
deriving DecidableEq, Repr, Inhabited

namespace Facet

def name : Facet → String
  | .internal => "internal"
  | .wire => "wire"

def all : List Facet := [.internal, .wire]

end Facet

namespace Direction

def name : Direction → String
  | .wireToInternal => "wire-to-internal"
  | .internalToWire => "internal-to-wire"

def source : Direction → Facet
  | .wireToInternal => .wire
  | .internalToWire => .internal

def target : Direction → Facet
  | .wireToInternal => .internal
  | .internalToWire => .wire

end Direction

namespace Perspective

def name : Perspective → String
  | .client => "client"
  | .server => "server"

def all : List Perspective := [.client, .server]

def ofName? (s : String) : Option Perspective := all.find? (·.name == s)

def inputs : Perspective → Role
  | .server => .serverInbound
  | .client => .clientInbound

def outputs : Perspective → Role
  | .server => .serverOutbound
  | .client => .clientOutbound

end Perspective

namespace Role

def name : Role → String
  | .serverInbound => "server-inbound"
  | .serverOutbound => "server-outbound"
  | .clientInbound => "client-inbound"
  | .clientOutbound => "client-outbound"

def all : List Role := [.serverInbound, .serverOutbound, .clientInbound, .clientOutbound]

def ofName? (s : String) : Option Role := all.find? (·.name == s)

def perspective : Role → Perspective
  | .serverInbound | .serverOutbound => .server
  | .clientInbound | .clientOutbound => .client

/-- A server reads its inputs off the wire, a client the outputs. -/
def direction : Role → Direction
  | .serverInbound | .clientOutbound => .wireToInternal
  | .serverOutbound | .clientInbound => .internalToWire

def source (r : Role) : Facet := r.direction.source

def target (r : Role) : Facet := r.direction.target

def parameter (r : Role) : String :=
  match r.direction with
  | .wireToInternal => "dto"
  | .internalToWire => "obj"

end Role

end DtoGen
