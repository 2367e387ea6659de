/-! Credentials for image registries, by registry host. -/

namespace PreviewApps

structure Credentials where
  username : String
  password : String
  deriving DecidableEq

abbrev RegistryCredentials := List (String × Credentials)

end PreviewApps
