import StubGen.Template.Basic

/-!
# Templates of functions

What is written for a function of each category, and for the module of its types.
-/

namespace StubGen.Template

/-- A function that calls a remote API and wraps the response. -/
def apiFunction : Template := .ofLines
  ["",
   "",
   "def «name»(",
   "«parameters»",
   ") -> «response_type»:",
   "    \"\"\"«description»",
   "",
   "    Function ID: «id_doc»",
   "    \"\"\"",
   "    resp = execute(\"api\", «id_literal», «payload»)",
   "    return «response_type»(resp.json())  # type: ignore"]

/-- The wrapper of an API response. -/
def apiResponse : Template := .ofLines
  ["class «response_type»(TypedDict):",
   "    status: int",
   "    headers: Dict",
   "    data: «data_type»"]

/-- A function that runs on the server. -/
def serverFunction : Template := .ofLines
  ["",
   "",
   "def «name»(",
   "«parameters»",
   ") -> «return_type»:",
   "    \"\"\"«description»",
   "",
   "    Function ID: «id_doc»",
   "    \"\"\"",
   "    resp = execute(\"server\", «id_literal», «payload»)",
   "    try:",
   "        return «return_action»",
   "    except ValueError as e:",
   "        logging.getLogger(\"poly\").warning(\"Could not decode response of «name», returning raw text: %s\", e)",
   "        return resp.text  # type: ignore"]

/-- A function whose code is part of the package. -/
def clientFunction : Template := .ofLines
  ["logger = logging.getLogger(\"poly\")",
   "try:",
   "    «code»",
   "except ImportError as e:",
   "    logger.warning(e)",
   "",
   ""]

/-- A subscription to the events of a webhook. -/
def webhookHandle : Template := .ofLines
  ["",
   "",
   "async def «name»(callback, options=None):",
   "    \"\"\"«description»",
   "",
   "    Function ID: «id_doc»",
   "    \"\"\"",
   "    from «package».runtime import events_client, active_handlers, get_api_key_and_url",
   "",
   "    print(«start_message»)",
   "",
   "    client = events_client()",
   "    if not client:",
   "        raise Exception(\"Client not initialized. Abort!\")",
   "",
   "    options = options or \x7b\x7d",
   "    eventsClientId = «client_id»",
   "    function_id = «id_literal»",
   "",
   "    api_key, base_url = get_api_key_and_url()",
   "",
   "    def registerCallback(registered: bool):",
   "        if registered:",
   "            client.on(\"handleWebhookEvent:\" + function_id, handleEvent, namespace=\"/events\")",
   "        else:",
   "            print(\"Could not register webhook event handler for \" + function_id)",
   "",
   "    async def handleEvent(data):",
   "        polyCustom = \x7b\x7d",
   "        resp = callback(data.get(\"body\"), data.get(\"headers\"), data.get(\"params\"), polyCustom)",
   "        if options.get(\"waitForResponse\"):",
   "            await client.emit(\"setWebhookListenerResponse\", \x7b",
   "                \"webhookHandleID\": function_id,",
   "                \"apiKey\": api_key,",
   "                \"clientID\": eventsClientId,",
   "                \"executionId\": data.get(\"executionId\"),",
   "                \"response\": \x7b",
   "                    \"data\": resp,",
   "                    \"statusCode\": polyCustom.get(\"responseStatusCode\", 200),",
   "                    \"contentType\": polyCustom.get(\"responseContentType\", None),",
   "                \x7d,",
   "            \x7d, namespace=\"/events\")",
   "",
   "    data = \x7b",
   "        \"clientID\": eventsClientId,",
   "        \"webhookHandleID\": function_id,",
   "        \"apiKey\": api_key,",
   "        \"waitForResponse\": options.get(\"waitForResponse\"),",
   "    \x7d",
   "    await client.emit(\"registerWebhookEventHandler\", data, namespace=\"/events\", callback=registerCallback)",
   "    active_handlers.append(\x7b",
   "        \"clientID\": eventsClientId,",
   "        \"webhookHandleID\": function_id,",
   "        \"apiKey\": api_key,",
   "        \"path\": «path_literal»,",
   "    \x7d)"]

/-- The operation that asks for a token. -/
def authGetToken : Template := .ofLines
  ["",
   "",
   "def getToken(",
   "    clientId: str,",
   "    clientSecret: str,",
   "    scopes: List[str],",
   "    callback: Callable[[Optional[str], Optional[str], Optional[Dict]], None],",
   "    options: Optional[Dict[str, Any]] = None,",
   ") -> AuthFunctionResponse:",
   "    \"\"\"«description»",
   "",
   "    Function ID: «id_doc»",
   "    \"\"\"",
   "    options = options or \x7b\x7d",
   "    data = \x7b",
   "        \"clientId\": clientId,",
   "        \"clientSecret\": clientSecret,",
   "        \"scopes\": scopes,",
   "        \"audience\": options.get(\"audience\"),",
   "        \"callbackUrl\": options.get(\"callbackUrl\"),",
   "        \"userId\": options.get(\"userId\"),",
   "    \x7d",
   "    resp = execute_post(\"/auth-providers/\" + «id_literal» + \"/execute\", data)",
   "    if resp.status_code < 200 or resp.status_code >= 300:",
   "        raise PolyApiException(f\"\x7bresp.status_code\x7d: \x7bresp.text\x7d\")",
   "",
   "    result = resp.json()",
   "    callback(result.get(\"token\"), result.get(\"url\"), result.get(\"error\"))",
   "    return AuthFunctionResponse(status=resp.status_code, headers=dict(resp.headers), data=result)"]

/-- The operation that renews a token. -/
def authRefreshToken : Template := .ofLines
  ["",
   "",
   "def refreshToken(token: str) -> str:",
   "    \"\"\"«description»",
   "",
   "    Function ID: «id_doc»",
   "    \"\"\"",
   "    resp = execute_post(\"/auth-providers/\" + «id_literal» + \"/refresh\", \x7b\"token\": token\x7d)",
   "    if resp.status_code < 200 or resp.status_code >= 300:",
   "        raise PolyApiException(f\"\x7bresp.status_code\x7d: \x7bresp.text\x7d\")",
   "    return resp.text"]

/-- The operation that gives a token up. -/
def authRevokeToken : Template := .ofLines
  ["",
   "",
   "def revokeToken(token: str) -> None:",
   "    \"\"\"«description»",
   "",
   "    Function ID: «id_doc»",
   "    \"\"\"",
   "    resp = execute_post(\"/auth-providers/\" + «id_literal» + \"/revoke\", \x7b\"token\": token\x7d)",
   "    if resp.status_code < 200 or resp.status_code >= 300:",
   "        raise PolyApiException(f\"\x7bresp.status_code\x7d: \x7bresp.text\x7d\")"]

/-- The module of the types that a declaration needs. -/
def typeModule : Template := .ofLines
  ["from typing import Any, Callable, Dict, List, Literal, Optional, Tuple, Union",
   "from typing_extensions import NotRequired, Required, TypedDict",
   "«imports»",
   "",
   "«body»"]

end StubGen.Template
