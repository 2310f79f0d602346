/-!
# Runtime helpers

Functions that lowered modules call at run time. They are either required from a helpers module,
one file per helper, or written out at the top of the module.
-/

namespace TsxCompiler

/-- A function that lowered modules may call. -/
inductive Helper where
  /-- Makes a module that has only a value look like one with a default export. -/
  | interopDefault
  /-- Makes a module look like a namespace with a default export. -/
  | interopWildcard
  /-- Copies the exports of one module to another. -/
  | exportStar
deriving DecidableEq, Repr

namespace Helper

/-- All helpers in the order they are emitted in. -/
def all : List Helper := [interopDefault, interopWildcard, exportStar]

/-- The name a helper is called by. -/
def name : Helper → String
  | interopDefault => "_interop_require_default"
  | interopWildcard => "_interop_require_wildcard"
  | exportStar => "_export_star"

/-- The lines that define a helper. -/
def definition : Helper → List String
  | interopDefault =>
    [ "function _interop_require_default(obj) \x7b",
      "    return obj && obj.__esModule ? obj : \x7b default: obj \x7d;",
      "\x7d" ]
  | interopWildcard =>
    [ "function _interop_require_wildcard(obj) \x7b",
      "    if (obj && obj.__esModule) return obj;",
      "    var newObj = \x7b default: obj \x7d;",
      "    if (obj != null) \x7b",
      "        for (var key in obj) \x7b",
      "            if (key !== \"default\" && Object.prototype.hasOwnProperty.call(obj, key)) newObj[key] = obj[key];",
      "        \x7d",
      "    \x7d",
      "    return newObj;",
      "\x7d" ]
  | exportStar =>
    [ "function _export_star(from, to) \x7b",
      "    Object.keys(from).forEach(function(k) \x7b",
      "        if (k !== \"default\" && !Object.prototype.hasOwnProperty.call(to, k)) \x7b",
      "            Object.defineProperty(to, k, \x7b enumerable: true, get: function() \x7b return from[k]; \x7d \x7d);",
      "        \x7d",
      "    \x7d);",
      "    return from;",
      "\x7d" ]

end Helper

end TsxCompiler
