import PreviewApps.AppName
import PreviewApps.Environment
import PreviewApps.Path
import PreviewApps.Time.Timestamp

/-! Services as callers configure them and as a backend reports them. -/

namespace PreviewApps

inductive ContainerType
  | standalone
  | replica
  | appCompanion
  | serviceCompanion
  deriving DecidableEq

namespace ContainerType

def label : ContainerType → String
  | standalone => "instance"
  | replica => "replica"
  | appCompanion => "app-companion"
  | serviceCompanion => "service-companion"

def all : List ContainerType := [standalone, replica, appCompanion, serviceCompanion]

def ofLabel? (s : String) : Option ContainerType := all.find? (·.label == s)

theorem ofLabel?_label (t : ContainerType) : ofLabel? t.label = some t := by cases t <;> decide

end ContainerType

inductive ServiceStatus
  | running
  | paused
  deriving DecidableEq

structure ServiceConfig where
  serviceName : String
  image : String
  env : Option Environment
  files : Option Files
  port : Int
  containerType : ContainerType
  deriving DecidableEq

structure Service where
  id : String
  app : AppName
  config : ServiceConfig
  status : ServiceStatus
  startedAt : Option Timestamp
  deriving DecidableEq

namespace Service

def name (s : Service) : String := s.config.serviceName

/-- Companions are set up by the system itself and are not copied with an application. -/
def isCopied (s : Service) : Bool :=
  s.config.containerType = .standalone || s.config.containerType = .replica

end Service

namespace Files

/-- First the last content of each spelling counts, then of each path. -/
def ofSpellings (entries : List (String × String)) : Files :=
  Assoc.ofList ((Assoc.ofList entries).map fun (p, content) => (Path.ofString p, content))

def sorted (files : Files) : Files := Text.sortBy (·.1.toString) files

end Files

end PreviewApps
