import PreviewApps.Service

/-! Labels and annotations by which deployed objects are found again. -/

namespace PreviewApps

namespace Label

def appName : String := "com.aixigo.preview.servant.app-name"

def serviceName : String := "com.aixigo.preview.servant.service-name"

def containerType : String := "com.aixigo.preview.servant.container-type"

def image : String := "com.aixigo.preview.servant.image"

def replicatedEnv : String := "com.aixigo.preview.servant.replicated-env"

def storageType : String := "com.aixigo.preview.servant.storage-type"

end Label

abbrev Labels := List (String × String)

namespace Labels

def ofApp (app : AppName) : Labels := [(Label.appName, app.value)]

def ofNamed (app : AppName) (service : String) : Labels :=
  [(Label.appName, app.value), (Label.serviceName, service)]

def ofService (app : AppName) (service : String) (type : ContainerType) : Labels :=
  ofNamed app service ++ [(Label.containerType, type.label)]

/-- A selector that asks for every label of the list with its value. -/
def selector (ls : Labels) : String := String.intercalate "," (ls.map fun (k, v) => k ++ "=" ++ v)

end Labels

end PreviewApps
