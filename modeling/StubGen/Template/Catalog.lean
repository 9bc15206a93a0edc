import StubGen.Template.Functions
import StubGen.Template.Package
import StubGen.Template.Sections

/-!
# The catalog of templates

The templates of this library by name.
-/

namespace StubGen.Template

def catalog : List (String × Template) :=
  [("functions/api", apiFunction),
   ("functions/api_response", apiResponse),
   ("functions/server", serverFunction),
   ("functions/client", clientFunction),
   ("functions/webhook", webhookHandle),
   ("functions/auth_get_token", authGetToken),
   ("functions/auth_refresh_token", authRefreshToken),
   ("functions/auth_revoke_token", authRevokeToken),
   ("functions/type_module", typeModule),
   ("sections/variable", variableClass),
   ("sections/table", tableClass),
   ("package/init", packageInit),
   ("package/runtime", packageRuntime),
   ("package/code_preamble", codePreamble),
   ("package/schemas_preamble", schemasPreamble),
   ("package/tables_preamble", tablesPreamble)]

/-- The template that goes by a name. -/
def named? (name : String) : Option Template := catalog.lookup name

end StubGen.Template
