/-! The functions of PHP by the chapter of the manual that describes them, and those that no chapter
describes. -/
namespace RuleLexer.Language.Php

structure Chapter where
  name : String
  functions : List String
deriving DecidableEq, Repr

/-- Functions that no chapter describes. -/
def undescribed : String := "unknown"

def chapters : List Chapter := [
  ⟨"Array",
    ["array_change_key_case", "array_chunk", "array_combine", "array_count_values", "array_diff",
     "array_diff_assoc", "array_diff_key", "array_fill", "array_filter", "array_flip",
     "array_intersect", "array_intersect_key", "array_key_exists", "array_keys", "array_map",
     "array_merge", "array_merge_recursive", "array_pad", "array_pop", "array_product",
     "array_push", "array_rand", "array_reduce", "array_reverse", "array_search", "array_shift",
     "array_slice", "array_splice", "array_sum", "array_unique", "array_unshift", "array_values",
     "array_walk", "arsort", "asort", "compact", "count", "current", "each", "end", "extract",
     "in_array", "key", "krsort", "ksort", "natcasesort", "natsort", "next", "pos", "prev",
     "range", "reset", "rsort", "shuffle", "sizeof", "sort", "uasort", "uksort", "usort"]⟩,
  ⟨"Classes/Objects",
    ["call_user_method", "class_exists", "get_class", "get_class_methods", "get_class_vars",
     "get_declared_classes", "get_object_vars", "get_parent_class", "interface_exists", "is_a",
     "is_subclass_of", "method_exists", "property_exists"]⟩,
  ⟨"Date/Time",
    ["checkdate", "date", "date_default_timezone_get", "date_default_timezone_set", "getdate",
     "gettimeofday", "gmdate", "gmmktime", "gmstrftime", "idate", "localtime", "microtime",
     "mktime", "strftime", "strtotime", "time"]⟩,
  ⟨"Directories",
    ["chdir", "chroot", "closedir", "dir", "getcwd", "opendir", "readdir", "rewinddir", "scandir"]⟩,
  ⟨"Error Handling",
    ["debug_backtrace", "debug_print_backtrace", "error_log", "error_reporting",
     "restore_error_handler", "restore_exception_handler", "set_error_handler",
     "set_exception_handler", "trigger_error", "user_error"]⟩,
  ⟨"Filesystem",
    ["basename", "chmod", "chown", "copy", "dirname", "fclose", "feof", "fflush", "fgetc",
     "fgetcsv", "fgets", "file", "file_exists", "file_get_contents", "file_put_contents",
     "filemtime", "filesize", "flock", "fopen", "fputcsv", "fread", "fseek", "ftell", "fwrite",
     "glob", "is_dir", "is_file", "is_readable", "is_writable", "mkdir", "pathinfo", "readfile",
     "realpath", "rename", "rewind", "rmdir", "tempnam", "tmpfile", "touch", "unlink"]⟩,
  ⟨"Function handling",
    ["call_user_func", "call_user_func_array", "create_function", "func_get_arg", "func_get_args",
     "func_num_args", "function_exists", "get_defined_functions", "register_shutdown_function",
     "register_tick_function"]⟩,
  ⟨"Math",
    ["abs", "acos", "asin", "atan", "atan2", "base_convert", "bindec", "ceil", "cos", "decbin",
     "dechex", "decoct", "deg2rad", "exp", "floor", "fmod", "hexdec", "hypot", "is_finite",
     "is_infinite", "is_nan", "log", "log10", "max", "min", "mt_rand", "mt_srand", "octdec", "pi",
     "pow", "rad2deg", "rand", "round", "sin", "sqrt", "srand", "tan"]⟩,
  ⟨"MySQL",
    ["mysql_affected_rows", "mysql_close", "mysql_connect", "mysql_errno", "mysql_error",
     "mysql_escape_string", "mysql_fetch_array", "mysql_fetch_assoc", "mysql_fetch_object",
     "mysql_fetch_row", "mysql_free_result", "mysql_insert_id", "mysql_num_rows",
     "mysql_pconnect", "mysql_query", "mysql_real_escape_string", "mysql_result",
     "mysql_select_db"]⟩,
  ⟨"Output Control",
    ["flush", "ob_clean", "ob_end_clean", "ob_end_flush", "ob_flush", "ob_get_clean",
     "ob_get_contents", "ob_get_flush", "ob_get_length", "ob_get_level", "ob_implicit_flush",
     "ob_start"]⟩,
  ⟨"PCRE",
    ["preg_grep", "preg_last_error", "preg_match", "preg_match_all", "preg_quote", "preg_replace",
     "preg_replace_callback", "preg_split"]⟩,
  ⟨"PHP Options/Info",
    ["assert", "assert_options", "extension_loaded", "get_cfg_var", "get_extension_funcs",
     "get_include_path", "get_loaded_extensions", "getenv", "getmypid", "ini_get", "ini_get_all",
     "ini_restore", "ini_set", "memory_get_usage", "php_sapi_name", "php_uname", "phpinfo",
     "phpversion", "putenv", "set_include_path", "set_time_limit", "version_compare"]⟩,
  ⟨"Strings",
    ["addslashes", "chop", "chr", "chunk_split", "crc32", "explode", "html_entity_decode",
     "htmlentities", "htmlspecialchars", "implode", "join", "lcfirst", "levenshtein", "ltrim",
     "md5", "nl2br", "number_format", "ord", "printf", "rtrim", "sha1", "similar_text", "soundex",
     "sprintf", "sscanf", "str_pad", "str_repeat", "str_replace", "str_split", "strcasecmp",
     "strcmp", "strip_tags", "stripslashes", "stripos", "strlen", "strpos", "strrev", "strrpos",
     "strstr", "strtolower", "strtoupper", "strtr", "substr", "substr_count", "trim", "ucfirst",
     "ucwords", "vsprintf", "wordwrap"]⟩,
  ⟨"Variable handling",
    ["boolval", "debug_zval_dump", "floatval", "get_defined_vars", "get_resource_type", "gettype",
     "intval", "is_array", "is_bool", "is_callable", "is_float", "is_int", "is_null",
     "is_numeric", "is_object", "is_resource", "is_scalar", "is_string", "print_r", "serialize",
     "settype", "strval", "unserialize", "var_dump", "var_export"]⟩,
  ⟨"Zlib",
    ["gzclose", "gzcompress", "gzdeflate", "gzencode", "gzfile", "gzgets", "gzinflate", "gzopen",
     "gzread", "gzuncompress", "gzwrite", "readgzfile", "zlib_get_coding_type"]⟩,
  ⟨undescribed,
    ["bzclose", "bzflush", "dl", "ezmlm_hash", "gzputs", "ob_iconv_handler",
     "openssl_get_privatekey", "pcntl_exec", "posix_getpid"]⟩]

def chapterNames : List String := chapters.map (·.name)

end RuleLexer.Language.Php
