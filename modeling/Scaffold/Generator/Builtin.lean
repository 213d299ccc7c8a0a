import Scaffold.Client.Files
import Scaffold.Deploy.Files
import Scaffold.Generator.Run

/-! # Built-in generators

Server, client and deployment. The client reads the schema among the server's files. -/
namespace Scaffold.Generator

def server : Generator where
  name := "backend"
  dependsOn := []
  generate r :=
    match Server.files r.app r.options with
    | .ok files => .tree files
    | .error e => .failed e.message

def client : Generator where
  name := "frontend"
  dependsOn := [server.name]
  generate r :=
    match Client.files ((r.dependencies.lookup server.name).getD []) with
    | .ok files => .tree files
    | .error e => .failed e.message

def deployment : Generator where
  name := "infra"
  dependsOn := []
  generate r := .tree (Deploy.files r.app r.options)

def builtin : Registry := ⟨[server, client, deployment]⟩

end Scaffold.Generator
