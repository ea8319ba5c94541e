import ApiSchema.Definition.Codec
import ApiSchema.Document.Basic

/-!
Documents in JSON. Every field may be missing, and every field is written.
-/

namespace ApiSchema

open Json (Codec Record)

/-- The form of licences. -/
def License.record : Record License where
  name := "License"
  initial := {}
  fields := [
    .always "name" .string name fun name l => { l with name },
    .always "url" .string url fun url l => { l with url }]

/-- The form of contacts. -/
def Contact.record : Record Contact where
  name := "Contact"
  initial := {}
  fields := [
    .always "name" .string name fun name c => { c with name },
    .always "url" .string url fun url c => { c with url },
    .always "email" .string email fun email c => { c with email }]

/-- The form of what an API is. -/
def Info.record : Record Info where
  name := "Info"
  initial := {}
  fields := [
    .always "title" .string title fun title i => { i with title },
    .always "desc" .string description fun description i => { i with description },
    .always "version" .string version fun version i => { i with version },
    .always "termsOfService" .string termsOfService fun termsOfService i =>
      { i with termsOfService },
    .always "license" (.option License.record.codec) license fun license i => { i with license },
    .always "contact" (.option Contact.record.codec) contact fun contact i => { i with contact }]

/-- The form of references to documentation that stands elsewhere. -/
def ExternalDocs.record : Record ExternalDocs where
  name := "ExternalDocs"
  initial := {}
  fields := [
    .always "desc" .string description fun description e => { e with description },
    .always "url" .string url fun url e => { e with url }]

/-- The form of tags. -/
def Tag.record : Record Tag where
  name := "Tag"
  initial := {}
  fields := [
    .always "name" .string name fun name t => { t with name },
    .always "desc" .string description fun description t => { t with description },
    .always "externalDocs" (.option ExternalDocs.record.codec) externalDocs fun externalDocs t =>
      { t with externalDocs }]

/-- The form of security schemes. -/
def Security.record : Record Security where
  name := "Security"
  initial := {}
  fields := [
    .always "title" .string title fun title s => { s with title },
    .always "type" .string type fun type s => { s with type },
    .always "desc" .string description fun description s => { s with description },
    .always "in" .string place fun place s => { s with place },
    .always "name" .string name fun name s => { s with name },
    .always "flow" .string flow fun flow s => { s with flow },
    .always "authorizationUrl" .string authorizationUrl fun authorizationUrl s =>
      { s with authorizationUrl },
    .always "tokenUrl" .string tokenUrl fun tokenUrl s => { s with tokenUrl },
    .always "scopes" (.dict .string) scopes fun scopes s => { s with scopes }]

/-- The form of what holds for a whole document. -/
def DocumentOption.record : Record DocumentOption where
  name := "DocumentOption"
  initial := {}
  fields := [
    .always "schemes" (.list .string) schemes fun schemes o => { o with schemes },
    .always "consumes" (.list .string) consumes fun consumes o => { o with consumes },
    .always "produces" (.list .string) produces fun produces o => { o with produces },
    .always "tags" (.list Tag.record.codec) tags fun tags o => { o with tags },
    .always "securities" (.list Security.record.codec) securities fun securities o =>
      { o with securities },
    .always "externalDocs" (.option ExternalDocs.record.codec) externalDocs fun externalDocs o =>
      { o with externalDocs },
    .always "additionalDoc" .string additionalDoc fun additionalDoc o => { o with additionalDoc },
    .always "routesAliases" (.dict .string) routesAliases fun routesAliases o =>
      { o with routesAliases },
    .always "routesAdditionalDocs" (.dict .string) routesAdditionalDocs
      fun routesAdditionalDocs o => { o with routesAdditionalDocs }]

/-- The form of parameters. -/
def Parameter.record : Record Parameter where
  name := "Param"
  initial := {}
  fields := [
    .always "name" .string name fun name p => { p with name },
    .always "in" .string place fun place p => { p with place },
    .always "type" .string type fun type p => { p with type },
    .always "required" .boolean required fun required p => { p with required },
    .always "desc" .string description fun description p => { p with description }]

/-- The form of responses. -/
def Response.record : Record Response where
  name := "Response"
  initial := {}
  fields := [
    .always "code" .natural16 code fun code r => { r with code },
    .always "type" .string type fun type r => { r with type },
    .always "desc" .string description fun description r => { r with description }]

/-- The form of operations. -/
def Operation.record : Record Operation where
  name := "Operation"
  initial := {}
  fields := [
    .always "method" .string method fun method o => { o with method },
    .always "route" .string route fun route o => { o with route },
    .always "summary" .string summary fun summary o => { o with summary },
    .always "desc" .string description fun description o => { o with description },
    .always "tags" (.list .string) tags fun tags o => { o with tags },
    .always "params" (.list Parameter.record.codec) parameters fun parameters o =>
      { o with parameters },
    .always "responses" (.list Response.record.codec) responses fun responses o =>
      { o with responses }]

/-- The form of documents. -/
def Document.record : Record Document where
  name := "Document"
  initial := {}
  fields := [
    .always "host" .string host fun host d => { d with host },
    .always "basePath" .string basePath fun basePath d => { d with basePath },
    .always "info" (.option Info.record.codec) info fun info d => { d with info },
    .always "option" (.option DocumentOption.record.codec) Document.option fun option d =>
      { d with option },
    .always "operations" (.list Operation.record.codec) operations fun operations d =>
      { d with operations },
    .always "definitions" (.list Definition.codec) definitions fun definitions d =>
      { d with definitions }]

/-- Documents in JSON. -/
def Document.codec : Codec Document :=
  Document.record.codec

end ApiSchema
