import OpenCodeRouter.Proxy.Router

inductive Json
  | str (s : String)
  | int (n : Int)
  | bool (b : Bool)
  | time (t : Time)
  deriving DecidableEq, Repr

inductive Reply
  | text (status : Nat) (body : String)
  | object (status : Nat) (fields : List (String × Json))
  | array (status : Nat) (items : List (List (String × Json)))
  deriving DecidableEq, Repr

namespace Config

def backendInfo (cfg : Config) (b : Backend) : List (String × Json) :=
  [("slug", .str b.slug), ("project_name", .str b.projectName), ("project_path", .str b.projectPath),
    ("port", .int b.port), ("version", .str b.version), ("domain", .str (cfg.domainFor b.slug)),
    ("path_prefix", .str ("/" ++ b.slug ++ "/")),
    ("url", .str ("http://localhost:" ++ toString cfg.listenPort ++ "/" ++ b.slug ++ "/")),
    ("last_seen", .time b.lastSeen)]

end Config

namespace Router

def methodNotAllowed : Reply :=
  .text 405 "method not allowed"

def handleAPIBackends (rt : Router) (entries : List Registry.Entry) (method : String) : Reply :=
  if method ≠ "GET" then methodNotAllowed
  else .array 200 ((Registry.all entries).map rt.cfg.backendInfo)

def handleAPIHealth (rt : Router) : Reply :=
  .object 200 [("healthy", .bool true), ("username", .str rt.cfg.username),
    ("backends", .int rt.registry.len)]

def resolve (rt : Router) (entries : List Registry.Entry) (path name : String) : Option Backend :=
  if path ≠ "" then rt.registry.lookupByPath entries path else rt.registry.lookup (slugify name)

def handleAPIResolve (rt : Router) (entries : List Registry.Entry) (method path name : String) :
    Reply :=
  if method ≠ "GET" then methodNotAllowed
  else if path = "" ∧ name = "" then .text 400 "missing \"path\" or \"name\" query parameter"
  else
    match rt.resolve entries path name with
    | none =>
      .object 404 [("error", .str "not_found"), ("query", .str (if path = "" then name else path)),
        ("detail", .str "no backend found for this project")]
    | some b => .object 200 (rt.cfg.backendInfo b)

theorem handleAPIResolve_eq_ok {rt : Router} {entries : List Registry.Entry}
    {method path name : String} {fields : List (String × Json)}
    (h : rt.handleAPIResolve entries method path name = .object 200 fields) :
    ∃ b, rt.resolve entries path name = some b ∧ fields = rt.cfg.backendInfo b := by
  unfold handleAPIResolve methodNotAllowed at h
  split at h
  · cases h
  split at h
  · cases h
  split at h
  · cases h
  · next b hb => cases h; exact ⟨b, hb, rfl⟩

end Router
