import Scaffold.Client.Script

/-! # Routes of the client -/
namespace Scaffold.Client

open Scaffold.Rest
open Scaffold.Text (unlines)

def pageImport (p : PageAccess) : String :=
  "import " ++ p.name ++ " from \"./pages/" ++ p.name ++ "\";"

def routeEntry (p : PageAccess) : String :=
  "  \x7b path: " ++ scriptText p.route ++ ", title: " ++ scriptText p.title ++
    ", permissions: " ++ scriptTexts p.permissions ++ ", component: " ++ p.name ++ " \x7d,"

def routesScript (s : Schema) : String :=
  unlines (header ++ ["import type \x7b ComponentType \x7d from \"react\";"] ++
    s.pages.map pageImport ++
    ["",
      "export interface RouteDef \x7b",
      "  path: string;",
      "  title: string;",
      "  permissions: string[];",
      "  component: ComponentType;",
      "\x7d",
      "",
      "export const routes: RouteDef[] = ["] ++
    s.pages.map routeEntry ++
    ["];",
      "",
      "// canAccess: a route without permissions is public.",
      "export function canAccess(route: RouteDef, roles: string[]): boolean \x7b",
      "  return route.permissions.length === 0 || " ++
        "route.permissions.some((p) => roles.includes(p));",
      "\x7d"])

end Scaffold.Client
