import StubGen.Template.Basic

/-!
# Templates of variables and tables

What is written for a variable and for a table.
-/

namespace StubGen.Template

/-- A variable as a class with its operations. -/
def variableClass : Template := .ofLines
  ["",
   "",
   "class «name»:",
   "    \"\"\"«description»",
   "",
   "    Variable ID: «id_doc»",
   "    \"\"\"",
   "",
   "    @staticmethod",
   "    def get() -> «value_type»:",
   "        if «secret»:",
   "            raise ValueError(\"Cannot access secret variable from client. Use .inject() instead within Poly function.\")",
   "        resp = variable_get(«id_literal»)",
   "        return «get_action»",
   "",
   "    @staticmethod",
   "    def update(value: «value_type») -> Dict[str, Any]:",
   "        resp = variable_update(«id_literal», value)",
   "        return resp.json()",
   "",
   "    @staticmethod",
   "    def inject(path: Optional[str] = None) -> Dict[str, Any]:",
   "        return \x7b",
   "            \"type\": \"PolyVariable\",",
   "            \"id\": «id_literal»,",
   "            \"path\": path,",
   "        \x7d"]

/-- A table as its row types, its query shapes and a class with its operations. -/
def tableClass : Template := .ofLines
  ["",
   "",
   "«name»Columns = Literal[«columns»]",
   "",
   "",
   "",
   "«row_classes»",
   "",
   "",
   "",
   "«subset_class»",
   "",
   "",
   "",
   "«where_class»",
   "",
   "",
   "",
   "class «name»SelectManyQuery(TypedDict):",
   "    where: NotRequired[«name»WhereFilter]",
   "    order_by: NotRequired[Dict[«name»Columns, SortOrder]]",
   "    limit: NotRequired[int]",
   "    offset: NotRequired[int]",
   "",
   "",
   "",
   "class «name»SelectOneQuery(TypedDict):",
   "    where: NotRequired[«name»WhereFilter]",
   "    order_by: NotRequired[Dict[«name»Columns, SortOrder]]",
   "",
   "",
   "",
   "class «name»InsertOneQuery(TypedDict):",
   "    data: «name»Subset",
   "",
   "",
   "",
   "class «name»InsertManyQuery(TypedDict):",
   "    data: List[«name»Subset]",
   "",
   "",
   "",
   "class «name»UpdateManyQuery(TypedDict):",
   "    where: NotRequired[«name»WhereFilter]",
   "    data: «name»Subset",
   "",
   "",
   "",
   "class «name»DeleteQuery(TypedDict):",
   "    where: NotRequired[«name»WhereFilter]",
   "",
   "",
   "",
   "class «name»QueryResults(TypedDict):",
   "    results: List[«name»Row]",
   "    pagination: None",
   "",
   "",
   "",
   "class «name»CountQuery(TypedDict):",
   "    where: NotRequired[«name»WhereFilter]",
   "",
   "",
   "",
   "class «name»:",
   "    \"\"\"«description»",
   "",
   "    Table ID: «id_doc»",
   "    \"\"\"",
   "    table_id = «id_literal»",
   "",
   "    @overload",
   "    @staticmethod",
   "    def count(query: «name»CountQuery) -> PolyCountResult: ...",
   "    @overload",
   "    @staticmethod",
   "    def count(*, where: Optional[«name»WhereFilter] = None) -> PolyCountResult: ...",
   "",
   "    @staticmethod",
   "    def count(*args, **kwargs) -> PolyCountResult:",
   "        query = query_from_call(args, kwargs)",
   "        return execute_query(«name».table_id, \"count\", transform_query(query))",
   "",
   "    @overload",
   "    @staticmethod",
   "    def select_many(query: «name»SelectManyQuery) -> «name»QueryResults: ...",
   "    @overload",
   "    @staticmethod",
   "    def select_many(*, where: Optional[«name»WhereFilter] = None, order_by: Optional[Dict[«name»Columns, SortOrder]] = None, limit: Optional[int] = None, offset: Optional[int] = None) -> «name»QueryResults: ...",
   "",
   "    @staticmethod",
   "    def select_many(*args, **kwargs) -> «name»QueryResults:",
   "        query = query_from_call(args, kwargs)",
   "        if query.get(\"limit\") is None:",
   "            query[\"limit\"] = «max_rows»",
   "        if query[\"limit\"] > «max_rows»:",
   "            raise ValueError(\"Cannot select more than «max_rows» rows at a time.\")",
   "        return execute_query(«name».table_id, \"select\", transform_query(query))",
   "",
   "    @overload",
   "    @staticmethod",
   "    def select_one(query: «name»SelectOneQuery) -> «name»Row: ...",
   "    @overload",
   "    @staticmethod",
   "    def select_one(*, where: Optional[«name»WhereFilter] = None, order_by: Optional[Dict[«name»Columns, SortOrder]] = None) -> «name»Row: ...",
   "",
   "    @staticmethod",
   "    def select_one(*args, **kwargs) -> «name»Row:",
   "        query = query_from_call(args, kwargs)",
   "        query[\"limit\"] = 1",
   "        return first_result(execute_query(«name».table_id, \"select\", transform_query(query)))",
   "",
   "    @overload",
   "    @staticmethod",
   "    def insert_many(query: «name»InsertManyQuery) -> «name»QueryResults: ...",
   "    @overload",
   "    @staticmethod",
   "    def insert_many(*, data: List[«name»Subset]) -> «name»QueryResults: ...",
   "",
   "    @staticmethod",
   "    def insert_many(*args, **kwargs) -> «name»QueryResults:",
   "        query = query_from_call(args, kwargs)",
   "        if len(query[\"data\"]) > «max_rows»:",
   "            raise ValueError(\"Cannot insert more than «max_rows» rows at a time.\")",
   "        return execute_query(«name».table_id, \"insert\", query)",
   "",
   "    @overload",
   "    @staticmethod",
   "    def insert_one(query: «name»InsertOneQuery) -> «name»Row: ...",
   "    @overload",
   "    @staticmethod",
   "    def insert_one(*, data: «name»Subset) -> «name»Row: ...",
   "",
   "    @staticmethod",
   "    def insert_one(*args, **kwargs) -> «name»Row:",
   "        query = query_from_call(args, kwargs)",
   "        return first_result(execute_query(«name».table_id, \"insert\", \x7b\"data\": [query[\"data\"]]\x7d))",
   "",
   "    @overload",
   "    @staticmethod",
   "    def upsert_many(query: «name»InsertManyQuery) -> «name»QueryResults: ...",
   "    @overload",
   "    @staticmethod",
   "    def upsert_many(*, data: List[«name»Subset]) -> «name»QueryResults: ...",
   "",
   "    @staticmethod",
   "    def upsert_many(*args, **kwargs) -> «name»QueryResults:",
   "        query = query_from_call(args, kwargs)",
   "        if len(query[\"data\"]) > «max_rows»:",
   "            raise ValueError(\"Cannot upsert more than «max_rows» rows at a time.\")",
   "        return execute_query(«name».table_id, \"upsert\", query)",
   "",
   "    @overload",
   "    @staticmethod",
   "    def upsert_one(query: «name»InsertOneQuery) -> «name»Row: ...",
   "    @overload",
   "    @staticmethod",
   "    def upsert_one(*, data: «name»Subset) -> «name»Row: ...",
   "",
   "    @staticmethod",
   "    def upsert_one(*args, **kwargs) -> «name»Row:",
   "        query = query_from_call(args, kwargs)",
   "        return first_result(execute_query(«name».table_id, \"upsert\", \x7b\"data\": [query[\"data\"]]\x7d))",
   "",
   "    @overload",
   "    @staticmethod",
   "    def update_many(query: «name»UpdateManyQuery) -> «name»QueryResults: ...",
   "    @overload",
   "    @staticmethod",
   "    def update_many(*, where: Optional[«name»WhereFilter] = None, data: «name»Subset) -> «name»QueryResults: ...",
   "",
   "    @staticmethod",
   "    def update_many(*args, **kwargs) -> «name»QueryResults:",
   "        query = query_from_call(args, kwargs)",
   "        return execute_query(«name».table_id, \"update\", transform_query(query))",
   "",
   "    @overload",
   "    @staticmethod",
   "    def delete_many(query: «name»DeleteQuery) -> PolyDeleteResults: ...",
   "    @overload",
   "    @staticmethod",
   "    def delete_many(*, where: Optional[«name»WhereFilter] = None) -> PolyDeleteResults: ...",
   "",
   "    @staticmethod",
   "    def delete_many(*args, **kwargs) -> PolyDeleteResults:",
   "        query = query_from_call(args, kwargs)",
   "        return execute_query(«name».table_id, \"delete\", transform_query(query))"]

end StubGen.Template
