import PreviewApps.Settings.ByteSize
import PreviewApps.Settings.Credentials

/-! Settings of the engine and the schema by which they are read. -/

namespace PreviewApps

inductive RuntimeKind
  | docker
  | kubernetes
  deriving DecidableEq

def RuntimeKind.label : RuntimeKind → String
  | docker => "Docker"
  | kubernetes => "Kubernetes"

/-- Storage for the volumes that images declare. -/
structure StorageConfig where
  size : Nat
  className : String
  deriving DecidableEq

structure ObjectReference where
  namespaceId : String
  name : String
  deriving DecidableEq

structure RuntimeConfig where
  kind : RuntimeKind
  namespaceAnnotations : List (String × String)
  storage : Option StorageConfig
  baseIngressRoute : Option ObjectReference
  deriving DecidableEq

structure ContainerConfig where
  memoryLimit : Option Nat
  deriving DecidableEq

structure Settings where
  runtime : RuntimeConfig
  container : ContainerConfig
  registries : RegistryCredentials
  kubeconfig : Option String
  kubeContext : Option String
  deriving DecidableEq

open Schema

namespace RuntimeKind

def decode : Decoder RuntimeKind
  | .str "Docker" => .ok docker
  | .str "Kubernetes" => .ok kubernetes
  | _ => .fail .notMember

end RuntimeKind

namespace StorageConfig

def decode : Decoder StorageConfig := object fun ms =>
  mk <$> withDefault ["storage_size"] (2 * Nat.pow 1024 3) ByteSize.decode ms
    <*> withDefault ["storage_class"] "local-path" string ms

end StorageConfig

namespace ObjectReference

def decode : Decoder ObjectReference := object fun ms =>
  mk <$> required ["namespace"] string ms <*> required ["name"] string ms

end ObjectReference

namespace RuntimeConfig

def initial : RuntimeConfig := ⟨.kubernetes, [], none, none⟩

def decodeAnnotations : Decoder (List (String × String)) := object fun ms =>
  withDefault ["namespace"] [] (map string) ms

def decode : Decoder RuntimeConfig := object fun ms =>
  mk <$> withDefault ["type"] initial.kind RuntimeKind.decode ms
    <*> withDefault ["annotations"] initial.namespaceAnnotations decodeAnnotations ms
    <*> withDefault ["storage"] initial.storage (optional StorageConfig.decode) ms
    <*> withDefault ["base_ingress_route"] initial.baseIngressRoute
      (optional ObjectReference.decode) ms

end RuntimeConfig

namespace ContainerConfig

def decode : Decoder ContainerConfig := object fun ms =>
  mk <$> withDefault ["memory_limit"] none (optional ByteSize.decode) ms

end ContainerConfig

namespace Credentials

def decode : Decoder Credentials := object fun ms =>
  mk <$> required ["username"] string ms <*> required ["password"] string ms

end Credentials

namespace Settings

def decode : Decoder Settings := object fun ms =>
  mk <$> withDefault ["runtime"] .initial RuntimeConfig.decode ms
    <*> withDefault ["container"] ⟨none⟩ ContainerConfig.decode ms
    <*> withDefault ["registries"] [] (map Credentials.decode) ms
    <*> withDefault ["kubeconfig"] none (optional string) ms
    <*> withDefault ["kube_context"] none (optional string) ms

/-- Annotations apply to namespaces of a cluster only. -/
def namespaceAnnotations (s : Settings) : List (String × String) :=
  if s.runtime.kind = .kubernetes then s.runtime.namespaceAnnotations else []

def credentialsFor? (s : Settings) (registry : String) : Option Credentials :=
  s.registries.lookup registry

end Settings

end PreviewApps
