import StubGen.Template.Basic

/-!
# Templates of the package

The files at the top of a package, and what the aggregators of its sections begin with.
-/

namespace StubGen.Template

/-- The top module of a package. -/
def packageInit : Template := .ofLines
  ["\"\"\"Poly client library generated by polygen. Regenerate with `polygen generate`, do not edit.\"\"\"",
   "from . import runtime",
   "«section_imports»"]

/-- What all generated modules share at run time. -/
def packageRuntime : Template := .ofLines
  ["\"\"\"Runtime support shared by every generated «package» module.\"\"\"",
   "import os",
   "from typing import Any, Dict, List, Literal, Optional, Tuple, Union",
   "",
   "import requests",
   "from requests import Response",
   "from typing_extensions import NotRequired, TypedDict",
   "",
   "DEFAULT_API_BASE_URL = «default_base_url»",
   "",
   "",
   "class PolyApiException(Exception):",
   "    \"\"\"Raised when the Poly service answers with a non-2xx status.\"\"\"",
   "",
   "",
   "class AuthFunctionResponse(TypedDict):",
   "    status: int",
   "    headers: Dict[str, str]",
   "    data: Any",
   "",
   "",
   "def get_api_key_and_url() -> Tuple[str, str]:",
   "    api_key = os.environ.get(\"POLY_API_KEY\")",
   "    base_url = os.environ.get(\"POLY_API_BASE_URL\", DEFAULT_API_BASE_URL)",
   "    if not api_key:",
   "        raise PolyApiException(\"POLY_API_KEY is not set\")",
   "    return api_key, base_url.rstrip(\"/\")",
   "",
   "",
   "def _auth_headers(api_key: str) -> Dict[str, str]:",
   "    return \x7b\"Authorization\": f\"Bearer \x7bapi_key\x7d\"\x7d",
   "",
   "",
   "def _raise_for_status(resp: Response) -> None:",
   "    if resp.status_code < 200 or resp.status_code >= 300:",
   "        content = resp.content.decode(\"utf-8\", errors=\"ignore\")",
   "        raise PolyApiException(f\"\x7bresp.status_code\x7d: \x7bcontent\x7d\")",
   "",
   "",
   "def execute(function_type: str, function_id: str, data: Dict[str, Any]) -> Response:",
   "    api_key, base_url = get_api_key_and_url()",
   "    url = f\"\x7bbase_url\x7d/functions/\x7bfunction_type\x7d/\x7bfunction_id\x7d/execute\"",
   "    resp = requests.post(url, json=data, headers=_auth_headers(api_key))",
   "    _raise_for_status(resp)",
   "    return resp",
   "",
   "",
   "def execute_post(path: str, data: Any) -> Response:",
   "    api_key, base_url = get_api_key_and_url()",
   "    return requests.post(base_url + path, json=data, headers=_auth_headers(api_key))",
   "",
   "",
   "def variable_get(variable_id: str) -> Response:",
   "    api_key, base_url = get_api_key_and_url()",
   "    resp = requests.get(f\"\x7bbase_url\x7d/variables/\x7bvariable_id\x7d/value\", headers=_auth_headers(api_key))",
   "    _raise_for_status(resp)",
   "    return resp",
   "",
   "",
   "def variable_update(variable_id: str, value: Any) -> Response:",
   "    api_key, base_url = get_api_key_and_url()",
   "    resp = requests.patch(f\"\x7bbase_url\x7d/variables/\x7bvariable_id\x7d\", json=\x7b\"value\": value\x7d, headers=_auth_headers(api_key))",
   "    _raise_for_status(resp)",
   "    return resp",
   "",
   "",
   "_events_client: Any = None",
   "active_handlers: List[Dict[str, Any]] = []",
   "",
   "",
   "def events_client() -> Any:",
   "    return _events_client",
   "",
   "",
   "def set_events_client(client: Any) -> None:",
   "    global _events_client",
   "    _events_client = client",
   "",
   "",
   "SortOrder = Literal[\"asc\", \"desc\"]",
   "",
   "",
   "class StringFilter(TypedDict, total=False):",
   "    eq: str",
   "    neq: str",
   "    in_: List[str]",
   "    not_in: List[str]",
   "    contains: str",
   "    starts_with: str",
   "    ends_with: str",
   "",
   "",
   "class NullableStringFilter(StringFilter, total=False):",
   "    is_null: bool",
   "",
   "",
   "class NumberFilter(TypedDict, total=False):",
   "    eq: float",
   "    neq: float",
   "    gt: float",
   "    gte: float",
   "    lt: float",
   "    lte: float",
   "    in_: List[float]",
   "    not_in: List[float]",
   "",
   "",
   "class NullableNumberFilter(NumberFilter, total=False):",
   "    is_null: bool",
   "",
   "",
   "class BooleanFilter(TypedDict, total=False):",
   "    eq: bool",
   "    neq: bool",
   "",
   "",
   "class NullableBooleanFilter(BooleanFilter, total=False):",
   "    is_null: bool",
   "",
   "",
   "class NullableObjectFilter(TypedDict, total=False):",
   "    is_null: bool",
   "",
   "",
   "class PolyCountResult(TypedDict):",
   "    count: int",
   "",
   "",
   "class PolyDeleteResults(TypedDict):",
   "    deleted: int",
   "",
   "",
   "_QUERY_KEYS = \x7b",
   "    \"not_\": \"not\",",
   "    \"in_\": \"in\",",
   "    \"not_in\": \"notIn\",",
   "    \"starts_with\": \"startsWith\",",
   "    \"ends_with\": \"endsWith\",",
   "    \"is_null\": \"isNull\",",
   "\x7d",
   "",
   "",
   "def _transform_keys(obj: Any) -> Any:",
   "    if isinstance(obj, dict):",
   "        return \x7b_QUERY_KEYS.get(k, k): _transform_keys(v) for k, v in obj.items()\x7d",
   "    if isinstance(obj, list):",
   "        return [_transform_keys(v) for v in obj]",
   "    return obj",
   "",
   "",
   "def transform_query(query: Dict[str, Any]) -> Dict[str, Any]:",
   "    result = \x7bk: v for k, v in query.items() if k != \"order_by\"\x7d",
   "    if query.get(\"where\"):",
   "        result[\"where\"] = _transform_keys(query[\"where\"])",
   "    if query.get(\"order_by\"):",
   "        result[\"orderBy\"] = query[\"order_by\"]",
   "    return result",
   "",
   "",
   "def query_from_call(args: Tuple[Any, ...], kwargs: Dict[str, Any]) -> Dict[str, Any]:",
   "    if args:",
   "        if len(args) != 1 or not isinstance(args[0], dict):",
   "            raise TypeError(\"Expected query as a single argument or as kwargs\")",
   "        return dict(args[0])",
   "    return dict(kwargs)",
   "",
   "",
   "def execute_query(table_id: str, method: str, query: Dict[str, Any]) -> Any:",
   "    api_key, base_url = get_api_key_and_url()",
   "    url = f\"\x7bbase_url\x7d/tables/\x7btable_id\x7d/\x7bmethod\x7d\"",
   "    resp = requests.post(url, json=query, headers=_auth_headers(api_key))",
   "    _raise_for_status(resp)",
   "    return resp.json()",
   "",
   "",
   "def first_result(rsp: Any) -> Any:",
   "    if isinstance(rsp, dict) and isinstance(rsp.get(\"results\"), list):",
   "        return rsp[\"results\"][0] if rsp[\"results\"] else None",
   "    return rsp"]

/-- The beginning of every module with functions or variables. -/
def codePreamble : Template := .ofLines
  ["from typing import List, Dict, Any, Optional, Callable",
   "from typing_extensions import TypedDict, NotRequired",
   "import logging",
   "import requests",
   "from «package».runtime import execute, execute_post, variable_get, variable_update, get_api_key_and_url, PolyApiException, AuthFunctionResponse",
   "",
   ""]

/-- The beginning of every module with schemas. -/
def schemasPreamble : Template := .ofLines
  ["from typing import Any, Dict, List, Literal, Tuple, Union",
   "from typing_extensions import NotRequired, Required, TypedDict",
   "",
   ""]

/-- The beginning of every module with tables. -/
def tablesPreamble : Template := .ofLines
  ["from typing_extensions import NotRequired, TypedDict",
   "from typing import Union, List, Dict, Any, Literal, Optional, Tuple, overload",
   "from typing_extensions import Required",
   "from «package».runtime import execute_query, first_result, transform_query, query_from_call",
   "from «package».runtime import PolyCountResult, PolyDeleteResults, SortOrder, StringFilter, NullableStringFilter, NumberFilter, NullableNumberFilter, BooleanFilter, NullableBooleanFilter, NullableObjectFilter",
   "",
   ""]

end StubGen.Template
