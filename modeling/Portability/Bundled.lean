import Portability.Files.Tree

namespace Portability.Bundled

def incompatibleList : String :=
  "\n".intercalate ["# Entities not supported by the target runtime.",
    "#",
    "# One identifier per line:",
    "#   <tag>-<namespace>[-<type>[+<nestedType>]*[.<member>][(<params>)]][ O]",
    "# Tags: N namespace, T type, F field, P property, E event, M method.",
    "# A trailing \" O\" marks an entity that still exists but is deprecated.",
    "",
    "N-System.Web",
    "N-System.Runtime.Remoting",
    "N-System.EnterpriseServices",
    "N-System.Workflow.Activities",
    "N-System.ServiceModel.Activation",
    "",
    "T-System-AppDomainSetup",
    "T-System-AppDomainManager",
    "T-System.Security-SecurityManager",
    "T-System.Security.Policy-Evidence",
    "T-System.Threading-HostExecutionContextManager",
    "T-System.Runtime.Serialization.Formatters.Binary-BinaryFormatter O",
    "T-System.Configuration-ConfigurationManager O",
    "T-System.Net-WebClient O",
    "T-System.Net-HttpWebRequest O",
    "",
    "M-System-AppDomain.CreateDomain(System.String)",
    "M-System-AppDomain.CreateDomain(System.String,System.Security.Policy.Evidence)",
    "M-System-AppDomain.ExecuteAssembly(System.String)",
    "M-System-AppDomain.Unload(System.AppDomain)",
    "M-System.Reflection-Assembly.ReflectionOnlyLoad(System.String)",
    "M-System.Reflection-Assembly.LoadWithPartialName(System.String) O",
    "M-System.Threading-Thread.Abort",
    "M-System.Threading-Thread.Suspend",
    "M-System.Threading-Thread.Resume",
    "",
    "P-System-AppDomain.SetupInformation",
    "P-System.Threading-Thread.ApartmentState O",
    "",
    "E-System-AppDomain.TypeResolve O",
    "",
    "F-System.Security.Permissions-SecurityAction.RequestMinimum O",
    ""]

def allowList : String :=
  "\n".intercalate ["# Entities never reported, even when a containing entity is incompatible.",
    "# Same format as incompatible_entities.txt.",
    "",
    "T-System.Web-HttpUtility",
    "M-System.Web-HttpUtility.HtmlEncode(System.String)",
    "M-System.Web-HttpUtility.UrlEncode(System.String)",
    ""]

def install (location : List String) (files : Files) : Files :=
  let lists := [("incompatible_entities.txt", incompatibleList), ("allow_list.txt", allowList)]
  let files := lists.foldl
    (fun files (name, text) => files.put (location ++ [name]) (.file text.toUTF8)) files
  { files with modules := files.modules ++
      [("runtime_compat.data", .package location), ("runtime_compat", .package location.dropLast)] }

end Portability.Bundled
