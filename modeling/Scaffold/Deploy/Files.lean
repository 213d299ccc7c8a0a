import Scaffold.Deploy.Compose
import Scaffold.Deploy.Terraform
import Scaffold.Output.Tree

/-! # Files of the deployment -/
namespace Scaffold.Deploy

open Scaffold.Model Scaffold.Generator

def files (a : Application) (o : Options) : Output.Tree :=
  [("docker-compose.yml", composeFile a o), (".env.example", envFile a o),
    ("terraform/main.tf", terraformModule a o)]

end Scaffold.Deploy
