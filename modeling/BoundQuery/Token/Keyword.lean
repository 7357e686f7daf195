/-!
# Keywords

The words that the grammar may give a meaning, in capitals. A word without quotes whose spelling in
capitals is listed is a keyword in some place, although most of them are plain names elsewhere; only
a few rules ask whether a word is a keyword at all.
-/

namespace BoundQuery

namespace Keyword

/-! ## The keywords by their initial -/

def initialA : List String :=
  ["ABORT", "ABS", "ABSENT", "ABSOLUTE", "ACCESS", "ACCOUNT", "ACTION", "ADD", "ADMIN", "AFTER",
    "AGAINST", "AGGREGATION", "ALERT", "ALGORITHM", "ALIAS", "ALL", "ALLOCATE", "ALTER", "ALWAYS",
    "ANALYZE", "AND", "ANTI", "ANY", "APPLICATION", "APPLY", "APPLYBUDGET", "ARCHIVE", "ARE",
    "ARRAY", "ARRAY_MAX_CARDINALITY", "AS", "ASC", "ASENSITIVE", "ASOF", "ASSERT", "ASYMMETRIC",
    "AT", "ATOMIC", "ATTACH", "AUDIT", "AUTHENTICATION", "AUTHORIZATION", "AUTO", "AUTOINCREMENT",
    "AUTO_INCREMENT", "AVG", "AVRO"]

def initialB : List String :=
  ["BACKWARD", "BASE64", "BASE_LOCATION", "BEFORE", "BEGIN", "BEGIN_FRAME", "BEGIN_PARTITION",
    "BERNOULLI", "BETWEEN", "BIGDECIMAL", "BIGINT", "BIGNUMERIC", "BINARY", "BIND", "BINDING",
    "BIT", "BLOB", "BLOCK", "BLOOMFILTER", "BOOL", "BOOLEAN", "BOTH", "BROWSE", "BTREE", "BUCKET",
    "BUCKETS", "BY", "BYPASSRLS", "BYTEA", "BYTES"]

def initialC : List String :=
  ["CACHE", "CALL", "CALLED", "CARDINALITY", "CASCADE", "CASCADED", "CASE", "CASES", "CAST",
    "CATALOG", "CATALOG_SYNC", "CEIL", "CEILING", "CENTURY", "CHAIN", "CHANGE", "CHANGE_TRACKING",
    "CHANNEL", "CHAR", "CHARACTER", "CHARACTERISTICS", "CHARACTERS", "CHARACTER_LENGTH",
    "CHARSET", "CHAR_LENGTH", "CHECK", "CLEAR", "CLOB", "CLONE", "CLOSE", "CLUSTER", "CLUSTERED",
    "CLUSTERING", "COALESCE", "COLLATE", "COLLATION", "COLLECT", "COLLECTION", "COLUMN",
    "COLUMNS", "COLUMNSTORE", "COMMENT", "COMMIT", "COMMITTED", "COMPRESSION", "COMPUTE",
    "CONCURRENTLY", "CONDITION", "CONFLICT", "CONNECT", "CONNECTION", "CONNECTOR", "CONSTRAINT",
    "CONTAINS", "CONTINUE", "CONVERT", "COPY", "COPY_OPTIONS", "CORR", "CORRESPONDING", "COUNT",
    "COVAR_POP", "COVAR_SAMP", "CREATE", "CREATEDB", "CREATEROLE", "CREDENTIALS", "CROSS", "CSV",
    "CUBE", "CUME_DIST", "CURRENT", "CURRENT_CATALOG", "CURRENT_DATE",
    "CURRENT_DEFAULT_TRANSFORM_GROUP", "CURRENT_PATH", "CURRENT_ROLE", "CURRENT_ROW",
    "CURRENT_SCHEMA", "CURRENT_TIME", "CURRENT_TIMESTAMP", "CURRENT_TRANSFORM_GROUP_FOR_TYPE",
    "CURRENT_USER", "CURSOR", "CYCLE"]

def initialD : List String :=
  ["DATA", "DATABASE", "DATABASES", "DATA_RETENTION_TIME_IN_DAYS", "DATE", "DATE32", "DATETIME",
    "DATETIME64", "DAY", "DAYOFWEEK", "DAYOFYEAR", "DEALLOCATE", "DEC", "DECADE", "DECIMAL",
    "DECLARE", "DEDUPLICATE", "DEFAULT", "DEFAULT_DDL_COLLATION", "DEFERRABLE", "DEFERRED",
    "DEFINE", "DEFINED", "DEFINER", "DELAYED", "DELETE", "DELIMITED", "DELIMITER", "DELTA",
    "DENSE_RANK", "DEREF", "DESC", "DESCRIBE", "DETACH", "DETAIL", "DETERMINISTIC", "DIRECTORY",
    "DISABLE", "DISCARD", "DISCONNECT", "DISTINCT", "DISTRIBUTE", "DIV", "DO", "DOUBLE", "DOW",
    "DOY", "DROP", "DRY", "DUPLICATE", "DYNAMIC"]

def initialE : List String :=
  ["EACH", "ELEMENT", "ELEMENTS", "ELSE", "EMPTY", "ENABLE", "ENABLE_SCHEMA_EVOLUTION",
    "ENCODING", "ENCRYPTION", "END", "ENDPOINT", "END_FRAME", "END_PARTITION", "ENFORCED",
    "ENGINE", "ENUM", "ENUM16", "ENUM8", "EPHEMERAL", "EPOCH", "EQUALS", "ERROR", "ESCAPE",
    "ESCAPED", "ESTIMATE", "EVENT", "EVERY", "EVOLVE", "EXCEPT", "EXCEPTION", "EXCHANGE",
    "EXCLUDE", "EXCLUSIVE", "EXEC", "EXECUTE", "EXECUTION", "EXISTS", "EXP", "EXPANSION",
    "EXPLAIN", "EXPLICIT", "EXPORT", "EXTENDED", "EXTENSION", "EXTERNAL", "EXTERNAL_VOLUME",
    "EXTRACT"]

def initialF : List String :=
  ["FAIL", "FAILOVER", "FALSE", "FETCH", "FIELDS", "FILE", "FILES", "FILE_FORMAT", "FILL",
    "FILTER", "FINAL", "FIRST", "FIRST_VALUE", "FIXEDSTRING", "FLOAT", "FLOAT32", "FLOAT4",
    "FLOAT64", "FLOAT8", "FLOOR", "FLUSH", "FN", "FOLLOWING", "FOR", "FORCE", "FORCE_NOT_NULL",
    "FORCE_NULL", "FORCE_QUOTE", "FOREIGN", "FORMAT", "FORMATTED", "FORWARD", "FRAME_ROW", "FREE",
    "FREEZE", "FROM", "FSCK", "FULFILLMENT", "FULL", "FULLTEXT", "FUNCTION", "FUNCTIONS", "FUSION"]

def initialG : List String :=
  ["GENERAL", "GENERATE", "GENERATED", "GEOGRAPHY", "GET", "GLOBAL", "GRANT", "GRANTED",
    "GRANTS", "GRAPHVIZ", "GROUP", "GROUPING", "GROUPS"]

def initialH : List String :=
  ["HASH", "HAVING", "HEADER", "HEAP", "HIGH_PRIORITY", "HISTORY", "HIVEVAR", "HOLD", "HOSTS",
    "HOUR", "HOURS"]

def initialI : List String :=
  ["ICEBERG", "IDENTITY", "IDENTITY_INSERT", "IF", "IGNORE", "ILIKE", "IMMEDIATE", "IMMUTABLE",
    "IMPORT", "IMPORTED", "IN", "INCLUDE", "INCLUDE_NULL_VALUES", "INCREMENT", "INDEX",
    "INDICATOR", "INHERIT", "INITIALLY", "INNER", "INOUT", "INPATH", "INPUT", "INPUTFORMAT",
    "INSENSITIVE", "INSERT", "INSTALL", "INSTANT", "INSTEAD", "INT", "INT128", "INT16", "INT2",
    "INT256", "INT32", "INT4", "INT64", "INT8", "INTEGER", "INTEGRATION", "INTERPOLATE",
    "INTERSECT", "INTERSECTION", "INTERVAL", "INTO", "INVOKER", "IS", "ISODOW", "ISOLATION",
    "ISOWEEK", "ISOYEAR", "ITEMS"]

def initialJ : List String :=
  ["JAR", "JOIN", "JSON", "JSONB", "JSONFILE", "JSON_TABLE", "JULIAN"]

def initialK : List String :=
  ["KEY", "KEYS", "KILL"]

def initialL : List String :=
  ["LAG", "LANGUAGE", "LARGE", "LAST", "LAST_VALUE", "LATERAL", "LEAD", "LEADING", "LEFT",
    "LEFTARG", "LEVEL", "LIKE", "LIKE_REGEX", "LIMIT", "LINES", "LISTEN", "LN", "LOAD", "LOCAL",
    "LOCALTIME", "LOCALTIMESTAMP", "LOCATION", "LOCK", "LOCKED", "LOG", "LOGIN", "LOGS",
    "LONGBLOB", "LONGTEXT", "LOWCARDINALITY", "LOWER", "LOW_PRIORITY"]

def initialM : List String :=
  ["MACRO", "MANAGE", "MANAGED", "MANAGEDLOCATION", "MAP", "MASKING", "MATCH", "MATCHED",
    "MATCHES", "MATCH_CONDITION", "MATCH_RECOGNIZE", "MATERIALIZE", "MATERIALIZED", "MAX",
    "MAXVALUE", "MAX_DATA_EXTENSION_TIME_IN_DAYS", "MEASURES", "MEDIUMBLOB", "MEDIUMINT",
    "MEDIUMTEXT", "MEMBER", "MERGE", "METADATA", "METHOD", "METRIC", "MICROSECOND",
    "MICROSECONDS", "MILLENIUM", "MILLENNIUM", "MILLISECOND", "MILLISECONDS", "MIN", "MINUTE",
    "MINVALUE", "MOD", "MODE", "MODIFIES", "MODIFY", "MODULE", "MONITOR", "MONTH", "MSCK",
    "MULTISET", "MUTATION"]

def initialN : List String :=
  ["NAME", "NANOSECOND", "NANOSECONDS", "NATIONAL", "NATURAL", "NCHAR", "NCLOB", "NESTED", "NEW",
    "NEXT", "NO", "NOBYPASSRLS", "NOCREATEDB", "NOCREATEROLE", "NOINHERIT", "NOLOGIN", "NONE",
    "NOORDER", "NOREPLICATION", "NORMALIZE", "NOSCAN", "NOSUPERUSER", "NOT", "NOTHING", "NOTIFY",
    "NOWAIT", "NO_WRITE_TO_BINLOG", "NTH_VALUE", "NTILE", "NULL", "NULLABLE", "NULLIF", "NULLS",
    "NUMERIC", "NVARCHAR"]

def initialO : List String :=
  ["OBJECT", "OBJECTS", "OCCURRENCES_REGEX", "OCTETS", "OCTET_LENGTH", "OF", "OFF", "OFFSET",
    "OFFSETS", "OLD", "OMIT", "ON", "ONE", "ONLY", "OPEN", "OPENJSON", "OPERATE", "OPERATOR",
    "OPTIMIZATION", "OPTIMIZE", "OPTIMIZED", "OPTIMIZER_COSTS", "OPTION", "OPTIONS", "OR", "ORC",
    "ORDER", "ORDINALITY", "ORGANIZATION", "OUT", "OUTER", "OUTPUTFORMAT", "OVER", "OVERFLOW",
    "OVERLAPS", "OVERLAY", "OVERRIDE", "OVERWRITE", "OWNED", "OWNER", "OWNERSHIP"]

def initialP : List String :=
  ["PACKAGE", "PACKAGES", "PARALLEL", "PARAMETER", "PARQUET", "PART", "PARTITION", "PARTITIONED",
    "PARTITIONS", "PASSWORD", "PAST", "PATH", "PATTERN", "PER", "PERCENT", "PERCENTILE_CONT",
    "PERCENTILE_DISC", "PERCENT_RANK", "PERIOD", "PERMISSIVE", "PERSISTENT", "PIVOT", "PLACING",
    "PLAN", "PLANS", "POINT", "POLICY", "POOL", "PORTION", "POSITION", "POSITION_REGEX", "POWER",
    "PRAGMA", "PRECEDES", "PRECEDING", "PRECISION", "PREPARE", "PRESERVE", "PREWHERE", "PRIMARY",
    "PRIOR", "PRIVILEGES", "PROCEDURE", "PROFILE", "PROGRAM", "PROJECTION", "PUBLIC", "PURCHASE",
    "PURGE"]

def initialQ : List String :=
  ["QUALIFY", "QUARTER", "QUERY", "QUOTE"]

def initialR : List String :=
  ["RAISERROR", "RANGE", "RANK", "RAW", "RCFILE", "READ", "READS", "READ_ONLY", "REAL",
    "RECURSIVE", "REF", "REFERENCES", "REFERENCING", "REGCLASS", "REGEXP", "REGR_AVGX",
    "REGR_AVGY", "REGR_COUNT", "REGR_INTERCEPT", "REGR_R2", "REGR_SLOPE", "REGR_SXX", "REGR_SXY",
    "REGR_SYY", "RELATIVE", "RELAY", "RELEASE", "REMOTE", "RENAME", "REORG", "REPAIR",
    "REPEATABLE", "REPLACE", "REPLICA", "REPLICATE", "REPLICATION", "RESET", "RESOLVE", "RESPECT",
    "RESTART", "RESTRICT", "RESTRICTED", "RESTRICTIVE", "RESULT", "RESULTSET", "RETAIN", "RETURN",
    "RETURNING", "RETURNS", "REVOKE", "RIGHT", "RIGHTARG", "RLIKE", "ROLE", "ROLES", "ROLLBACK",
    "ROLLUP", "ROOT", "ROW", "ROWID", "ROWS", "ROW_NUMBER", "RULE", "RUN"]

def initialS : List String :=
  ["SAFE", "SAFE_CAST", "SAMPLE", "SAVEPOINT", "SCHEMA", "SCHEMAS", "SCOPE", "SCROLL", "SEARCH",
    "SECOND", "SECRET", "SECURITY", "SEED", "SELECT", "SEMI", "SENSITIVE", "SEPARATOR",
    "SEQUENCE", "SEQUENCEFILE", "SEQUENCES", "SERDE", "SERDEPROPERTIES", "SERIALIZABLE",
    "SERVICE", "SESSION", "SESSION_USER", "SET", "SETERROR", "SETS", "SETTINGS", "SHARE", "SHOW",
    "SIMILAR", "SKIP", "SLOW", "SMALLINT", "SNAPSHOT", "SOME", "SORT", "SORTED", "SOURCE",
    "SPATIAL", "SPECIFIC", "SPECIFICTYPE", "SQL", "SQLEXCEPTION", "SQLSTATE", "SQLWARNING",
    "SQRT", "STABLE", "STAGE", "START", "STARTS", "STATEMENT", "STATIC", "STATISTICS", "STATUS",
    "STDDEV_POP", "STDDEV_SAMP", "STDIN", "STDOUT", "STEP", "STORAGE_INTEGRATION",
    "STORAGE_SERIALIZATION_POLICY", "STORED", "STRICT", "STRING", "STRUCT", "SUBMULTISET",
    "SUBSTRING", "SUBSTRING_REGEX", "SUCCEEDS", "SUM", "SUPER", "SUPERUSER", "SUPPORT", "SUSPEND",
    "SWAP", "SYMMETRIC", "SYNC", "SYSTEM", "SYSTEM_TIME", "SYSTEM_USER"]

def initialT : List String :=
  ["TABLE", "TABLES", "TABLESAMPLE", "TAG", "TARGET", "TASK", "TBLPROPERTIES", "TEMP",
    "TEMPORARY", "TEMPTABLE", "TERMINATED", "TERSE", "TEXT", "TEXTFILE", "THEN", "TIES", "TIME",
    "TIMESTAMP", "TIMESTAMPTZ", "TIMETZ", "TIMEZONE", "TIMEZONE_ABBR", "TIMEZONE_HOUR",
    "TIMEZONE_MINUTE", "TIMEZONE_REGION", "TINYBLOB", "TINYINT", "TINYTEXT", "TO", "TOP",
    "TOTALS", "TRACE", "TRAILING", "TRANSACTION", "TRANSIENT", "TRANSLATE", "TRANSLATE_REGEX",
    "TRANSLATION", "TREAT", "TRIGGER", "TRIM", "TRIM_ARRAY", "TRUE", "TRUNCATE", "TRY",
    "TRY_CAST", "TRY_CONVERT", "TUPLE", "TYPE"]

def initialU : List String :=
  ["UESCAPE", "UINT128", "UINT16", "UINT256", "UINT32", "UINT64", "UINT8", "UNBOUNDED",
    "UNCACHE", "UNCOMMITTED", "UNDEFINED", "UNFREEZE", "UNION", "UNIQUE", "UNKNOWN", "UNLISTEN",
    "UNLOAD", "UNLOCK", "UNLOGGED", "UNMATCHED", "UNNEST", "UNPIVOT", "UNSAFE", "UNSIGNED",
    "UNTIL", "UPDATE", "UPPER", "URL", "USAGE", "USE", "USER", "USER_RESOURCES", "USING", "UUID"]

def initialV : List String :=
  ["VALID", "VALIDATION_MODE", "VALUE", "VALUES", "VALUE_OF", "VARBINARY", "VARCHAR",
    "VARIABLES", "VARYING", "VAR_POP", "VAR_SAMP", "VERBOSE", "VERSION", "VERSIONING", "VERSIONS",
    "VIEW", "VIEWS", "VIRTUAL", "VOLATILE"]

def initialW : List String :=
  ["WAREHOUSE", "WAREHOUSES", "WEEK", "WEEKS", "WHEN", "WHENEVER", "WHERE", "WIDTH_BUCKET",
    "WINDOW", "WITH", "WITHIN", "WITHOUT", "WITHOUT_ARRAY_WRAPPER", "WORK", "WRITE"]

def initialX : List String :=
  ["XML", "XOR"]

def initialY : List String :=
  ["YEAR", "YEARS"]

def initialZ : List String :=
  ["ZONE", "ZORDER"]

/-! ## Words -/

/-- The keywords with a given initial. -/
def startingWith : Char → List String
  | 'A' => initialA
  | 'B' => initialB
  | 'C' => initialC
  | 'D' => initialD
  | 'E' => initialE
  | 'F' => initialF
  | 'G' => initialG
  | 'H' => initialH
  | 'I' => initialI
  | 'J' => initialJ
  | 'K' => initialK
  | 'L' => initialL
  | 'M' => initialM
  | 'N' => initialN
  | 'O' => initialO
  | 'P' => initialP
  | 'Q' => initialQ
  | 'R' => initialR
  | 'S' => initialS
  | 'T' => initialT
  | 'U' => initialU
  | 'V' => initialV
  | 'W' => initialW
  | 'X' => initialX
  | 'Y' => initialY
  | 'Z' => initialZ
  | _ => []

/-- Whether a spelling in capitals is that of a keyword. -/
def isKeyword (spelling : String) : Bool :=
  match spelling.toList with
  | [] => false
  | initial :: _ => (startingWith initial).contains spelling

/-- A character in capitals, where that gives letters of ASCII. Beyond `a` to `z` these are the
dotless i, the long s, the sharp s and the joined letters with f and s. -/
def capital (c : Char) : List Char :=
  if 'a' ≤ c && c ≤ 'z' then [c.toUpper]
  else
    match c.toNat with
    | 0xDF => ['S', 'S']
    | 0x131 => ['I']
    | 0x17F => ['S']
    | 0xFB00 => ['F', 'F']
    | 0xFB01 => ['F', 'I']
    | 0xFB02 => ['F', 'L']
    | 0xFB03 => ['F', 'F', 'I']
    | 0xFB04 => ['F', 'F', 'L']
    | 0xFB05 => ['S', 'T']
    | 0xFB06 => ['S', 'T']
    | _ => [c]

/-- A word in capitals. -/
def capitals (word : String) : String :=
  String.ofList (word.toList.flatMap capital)

end Keyword

end BoundQuery
