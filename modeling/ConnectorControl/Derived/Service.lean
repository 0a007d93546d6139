import ConnectorControl.Derived.Naming

/-!
# The Service of an HTTP-scaled Connector

The Service forwards one port to the same port of the pods.
-/

namespace ConnectorControl

structure Service where
  metadata : Metadata
  type : ServiceType
  port : Int32
  selector : Table String String

namespace Service

def ofConnector (c : Connector) (port : Int32) (type : ServiceType) : Service where
  metadata := Derived.metadata c c.name
  type := type
  port := port
  selector := Derived.selectorLabels c.name

def spec (s : Service) : Json :=
  .object [
    ("ports", .arr [.object [
      ("name", .str "http"),
      ("port", .int s.port.toInt),
      ("protocol", .str "TCP"),
      ("targetPort", .int s.port.toInt)]]),
    ("selector", .ofStringTable s.selector),
    ("type", .str s.type.name)]

def toObject (s : Service) : Object where
  types := some ⟨Kind.apiVersion DerivedKind.service, DerivedKind.service.name⟩
  metadata := s.metadata
  body := .ofList [("spec", s.spec)]

end Service
end ConnectorControl
