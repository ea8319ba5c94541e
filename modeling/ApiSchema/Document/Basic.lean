import ApiSchema.Definition.Basic
import ApiSchema.Dict

/-!
Documents: the flat description of an API, and how one is put together step by step.

Type expressions stand in parameters, in responses and in the properties of definitions; all
else is only carried along.
-/

namespace ApiSchema

/-- The licence of an API. -/
structure License where
  name : Text := []
  url : Text := []
  deriving DecidableEq, Repr, Inhabited

/-- Who is responsible for an API. -/
structure Contact where
  name : Text := []
  url : Text := []
  email : Text := []
  deriving DecidableEq, Repr, Inhabited

/-- What an API is. -/
structure Info where
  title : Text := []
  description : Text := []
  version : Text := []
  termsOfService : Text := []
  license : Option License := none
  contact : Option Contact := none
  deriving DecidableEq, Repr, Inhabited

namespace Info

/-- A title, a description and a version. -/
def new (title description version : Text) : Info :=
  { title, description, version }

/-- Sets the terms of service. -/
def withTermsOfService (i : Info) (termsOfService : Text) : Info :=
  { i with termsOfService }

/-- Sets the licence. -/
def withLicense (i : Info) (license : License) : Info :=
  { i with license := some license }

/-- Sets the contact. -/
def withContact (i : Info) (contact : Contact) : Info :=
  { i with contact := some contact }

end Info

/-- Documentation that stands elsewhere. -/
structure ExternalDocs where
  description : Text := []
  url : Text := []
  deriving DecidableEq, Repr, Inhabited

/-- A tag that groups operations. -/
structure Tag where
  name : Text := []
  description : Text := []
  externalDocs : Option ExternalDocs := none
  deriving DecidableEq, Repr, Inhabited

namespace Tag

/-- A tag without further documentation. -/
def new (name description : Text) : Tag :=
  { name, description }

/-- Sets the documentation that stands elsewhere. -/
def withExternalDocs (t : Tag) (docs : ExternalDocs) : Tag :=
  { t with externalDocs := some docs }

end Tag

/-- A security scheme. A place and a name belong to API keys; a flow, its addresses and the
scopes belong to OAuth 2. -/
structure Security where
  title : Text := []
  type : Text := []
  description : Text := []
  place : Text := []
  name : Text := []
  flow : Text := []
  authorizationUrl : Text := []
  tokenUrl : Text := []
  scopes : Dict Text := .empty
  deriving DecidableEq, Repr, Inhabited

namespace Security

/-- A scheme of some type. -/
def new (title type : Text) : Security :=
  { title, type }

/-- A key that is sent at some place under some name. -/
def apiKey (title place name : Text) : Security :=
  { title, type := "apiKey".toList, place, name }

/-- A user name and a password. -/
def basic (title : Text) : Security :=
  { title, type := "basic".toList }

/-- A flow of OAuth 2. -/
def oauth2 (title flow : Text) : Security :=
  { title, type := "oauth2".toList, flow }

/-- Sets the description. -/
def withDescription (s : Security) (description : Text) : Security :=
  { s with description }

/-- Sets the place of the key. -/
def withPlace (s : Security) (place : Text) : Security :=
  { s with place }

/-- Sets the name of the key. -/
def withName (s : Security) (name : Text) : Security :=
  { s with name }

/-- Sets the flow. -/
def withFlow (s : Security) (flow : Text) : Security :=
  { s with flow }

/-- Sets where authorization is asked for. -/
def withAuthorizationUrl (s : Security) (authorizationUrl : Text) : Security :=
  { s with authorizationUrl }

/-- Sets where tokens are given out. -/
def withTokenUrl (s : Security) (tokenUrl : Text) : Security :=
  { s with tokenUrl }

/-- Sets the scopes. -/
def withScopes (s : Security) (scopes : Dict Text) : Security :=
  { s with scopes }

/-- Adds a scope. -/
def addScope (s : Security) (scope description : Text) : Security :=
  { s with scopes := s.scopes.insert scope description }

end Security

/-- What holds for a whole document and says nothing about types. -/
structure DocumentOption where
  schemes : List Text := []
  consumes : List Text := []
  produces : List Text := []
  tags : List Tag := []
  securities : List Security := []
  externalDocs : Option ExternalDocs := none
  additionalDoc : Text := []
  /-- other names of routes -/
  routesAliases : Dict Text := .empty
  /-- further text about routes -/
  routesAdditionalDocs : Dict Text := .empty
  deriving DecidableEq, Repr, Inhabited

namespace DocumentOption

/-- Sets the schemes. -/
def withSchemes (o : DocumentOption) (schemes : List Text) : DocumentOption :=
  { o with schemes }

/-- Adds schemes. -/
def addSchemes (o : DocumentOption) (schemes : List Text) : DocumentOption :=
  { o with schemes := o.schemes ++ schemes }

/-- Sets what is consumed. -/
def withConsumes (o : DocumentOption) (consumes : List Text) : DocumentOption :=
  { o with consumes }

/-- Adds to what is consumed. -/
def addConsumes (o : DocumentOption) (consumes : List Text) : DocumentOption :=
  { o with consumes := o.consumes ++ consumes }

/-- Sets what is produced. -/
def withProduces (o : DocumentOption) (produces : List Text) : DocumentOption :=
  { o with produces }

/-- Adds to what is produced. -/
def addProduces (o : DocumentOption) (produces : List Text) : DocumentOption :=
  { o with produces := o.produces ++ produces }

/-- Sets the tags. -/
def withTags (o : DocumentOption) (tags : List Tag) : DocumentOption :=
  { o with tags }

/-- Adds tags. -/
def addTags (o : DocumentOption) (tags : List Tag) : DocumentOption :=
  { o with tags := o.tags ++ tags }

/-- Sets the security schemes. -/
def withSecurities (o : DocumentOption) (securities : List Security) : DocumentOption :=
  { o with securities }

/-- Adds security schemes. -/
def addSecurities (o : DocumentOption) (securities : List Security) : DocumentOption :=
  { o with securities := o.securities ++ securities }

/-- Sets the documentation that stands elsewhere. -/
def withExternalDocs (o : DocumentOption) (docs : ExternalDocs) : DocumentOption :=
  { o with externalDocs := some docs }

/-- Sets the additional text. -/
def withAdditionalDoc (o : DocumentOption) (additionalDoc : Text) : DocumentOption :=
  { o with additionalDoc }

/-- Sets the other names of routes. -/
def withRoutesAliases (o : DocumentOption) (routesAliases : Dict Text) : DocumentOption :=
  { o with routesAliases }

/-- Sets the other name of a route. -/
def addRoutesAlias (o : DocumentOption) (route other : Text) : DocumentOption :=
  { o with routesAliases := o.routesAliases.insert route other }

/-- Sets the further text about routes. -/
def withRoutesAdditionalDocs (o : DocumentOption) (docs : Dict Text) : DocumentOption :=
  { o with routesAdditionalDocs := docs }

/-- Sets the further text about a route. -/
def addRoutesAdditionalDoc (o : DocumentOption) (route doc : Text) : DocumentOption :=
  { o with routesAdditionalDocs := o.routesAdditionalDocs.insert route doc }

end DocumentOption

/-- A parameter of an operation. -/
structure Parameter where
  name : Text := []
  place : Text := []
  type : Text := []
  required : Bool := false
  description : Text := []
  deriving DecidableEq, Repr, Inhabited

/-- A response of an operation. Its type is blank if it has no body. -/
structure Response where
  code : UInt16 := 0
  type : Text := []
  description : Text := []
  deriving DecidableEq, Repr, Inhabited

/-- An operation on a route. -/
structure Operation where
  method : Text := []
  route : Text := []
  summary : Text := []
  description : Text := []
  tags : List Text := []
  parameters : List Parameter := []
  responses : List Response := []
  deriving DecidableEq, Repr, Inhabited

namespace Operation

/-- An operation without parameters and responses. -/
def new (method route summary : Text) : Operation :=
  { method, route, summary }

/-- Sets the description. -/
def withDescription (o : Operation) (description : Text) : Operation :=
  { o with description }

/-- Sets the tags. -/
def withTags (o : Operation) (tags : List Text) : Operation :=
  { o with tags }

/-- Sets the parameters. -/
def withParameters (o : Operation) (parameters : List Parameter) : Operation :=
  { o with parameters }

/-- Sets the responses. -/
def withResponses (o : Operation) (responses : List Response) : Operation :=
  { o with responses }

end Operation

/-- The description of an API. -/
structure Document where
  host : Text := []
  basePath : Text := []
  info : Option Info := none
  option : Option DocumentOption := none
  operations : List Operation := []
  definitions : List Definition := []
  deriving Repr, Inhabited

namespace Document

/-- A document without operations and definitions. -/
def new (host basePath : Text) (info : Option Info) : Document :=
  { host, basePath, info }

/-- Sets the host. -/
def withHost (d : Document) (host : Text) : Document :=
  { d with host }

/-- Sets the path that all routes start with. -/
def withBasePath (d : Document) (basePath : Text) : Document :=
  { d with basePath }

/-- Sets what the API is. -/
def withInfo (d : Document) (info : Info) : Document :=
  { d with info := some info }

/-- Sets what holds for the whole document. -/
def withOption (d : Document) (option : DocumentOption) : Document :=
  { d with option := some option }

/-- Sets the operations. -/
def withOperations (d : Document) (operations : List Operation) : Document :=
  { d with operations }

/-- Adds operations at the end. -/
def addOperations (d : Document) (operations : List Operation) : Document :=
  { d with operations := d.operations ++ operations }

/-- Sets the definitions. -/
def withDefinitions (d : Document) (definitions : List Definition) : Document :=
  { d with definitions }

/-- Adds definitions at the end. -/
def addDefinitions (d : Document) (definitions : List Definition) : Document :=
  { d with definitions := d.definitions ++ definitions }

/-- Starts over with nothing set. -/
def cleanup (_ : Document) : Document :=
  {}

end Document

end ApiSchema
