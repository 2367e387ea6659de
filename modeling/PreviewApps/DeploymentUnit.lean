import PreviewApps.Labels
import PreviewApps.Route
import PreviewApps.Settings.Credentials
import PreviewApps.Strategy

/-!
What is deployed together: the services of one application and the credentials for their images.
-/

namespace PreviewApps

structure DeployableService where
  config : ServiceConfig
  strategy : Strategy
  route : IngressRoute
  declaredVolumes : List String

namespace DeployableService

def name (s : DeployableService) : String := s.config.serviceName

def labels (app : AppName) (s : DeployableService) : Labels :=
  .ofService app s.name s.config.containerType

def files (s : DeployableService) : Files := s.config.files.getD []

end DeployableService

structure DeploymentUnit where
  app : AppName
  services : List DeployableService
  credentials : RegistryCredentials

namespace DeploymentUnit

def needsPullSecret (u : DeploymentUnit) : Bool := !u.credentials.isEmpty

def serviceNames (u : DeploymentUnit) : List String := u.services.map (·.name)

end DeploymentUnit

end PreviewApps
