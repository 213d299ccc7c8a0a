/-! # Providers

The properties that each provider of authentication, mail and monitoring accepts. The order of the
table is the order in which messages list them. -/
namespace Scaffold.Model

/-- What a provider is for. -/
inductive ProviderBlock
  | auth | email | monitoring
  deriving DecidableEq, Repr

namespace ProviderBlock

def name : ProviderBlock → String
  | auth => "auth"
  | email => "email"
  | monitoring => "monitoring"

def ofName? (name : String) : Option ProviderBlock :=
  [auth, email, monitoring].find? (·.name == name)

end ProviderBlock

/-- What a provider property may hold. -/
inductive PropKind
  | string
  | secret
  | int
  | entity
  deriving DecidableEq, Repr

def PropKind.code : PropKind → Nat
  | string => 0
  | secret => 1
  | int => 2
  | entity => 3

structure PropSpec where
  name : String
  kind : PropKind
  required : Bool
  deriving DecidableEq, Repr

structure ProviderSchema where
  block : ProviderBlock
  provider : String
  props : List PropSpec
  deriving DecidableEq, Repr

namespace ProviderSchema

def prop? (s : ProviderSchema) (name : String) : Option PropSpec :=
  s.props.find? (·.name == name)

def required (s : ProviderSchema) : List String :=
  (s.props.filter (·.required)).map (·.name)

/-- A property that must be given. -/
def must (name : String) (kind : PropKind) : PropSpec := ⟨name, kind, true⟩

/-- A property that may be given. -/
def may (name : String) (kind : PropKind) : PropSpec := ⟨name, kind, false⟩

def all : List ProviderSchema := [
  ⟨.auth, "jwt",
    [must "userEntity" .entity, may "secret" .secret, may "expiresIn" .string]⟩,
  ⟨.auth, "clerk",
    [must "userEntity" .entity, must "publishableKey" .secret, must "secretKey" .secret]⟩,
  ⟨.auth, "auth0",
    [must "userEntity" .entity, must "domain" .string, must "clientId" .string,
      must "clientSecret" .secret, may "audience" .string]⟩,
  ⟨.email, "sendgrid", [must "apiKey" .secret, may "from" .string]⟩,
  ⟨.email, "smtp",
    [must "host" .string, may "port" .int, may "user" .string, may "password" .secret,
      may "from" .string]⟩,
  ⟨.email, "resend", [must "apiKey" .secret, may "from" .string]⟩,
  ⟨.monitoring, "sentry", [must "dsn" .secret, may "environment" .string]⟩,
  ⟨.monitoring, "datadog", [must "apiKey" .secret, may "site" .string]⟩]

def find? (block : ProviderBlock) (provider : String) : Option ProviderSchema :=
  all.find? fun s => s.block = block && s.provider == provider

end ProviderSchema

/-- The providers of a block, in table order. -/
def providers (block : ProviderBlock) : List String :=
  (ProviderSchema.all.filter (·.block = block)).map (·.provider)

end Scaffold.Model
