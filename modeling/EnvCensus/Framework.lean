import EnvCensus.Data.Json
import EnvCensus.Disk.Route
import EnvCensus.Text.Utf8

/-! Frameworks.  A framework has prefixes of its own that make variables public, and files of its
own to look at and to leave out.  It is recognised by the first of its markers: the names of
dependencies come before the names of configuration files. -/
namespace EnvCensus

inductive Framework where
  | nextjs
  | vite
  | astro
  | sveltekit
  | nuxt
  | remix
  deriving DecidableEq, Repr

namespace Framework

def all : List Framework := [nextjs, vite, astro, sveltekit, nuxt, remix]

def tag : Framework → String
  | nextjs => "nextjs"
  | vite => "vite"
  | astro => "astro"
  | sveltekit => "sveltekit"
  | nuxt => "nuxt"
  | remix => "remix"

def ofTag? (t : String) : Option Framework := all.find? fun f => f.tag == t

/-- The name in reports. -/
def name : Framework → String
  | nextjs => "Next.js"
  | vite => "Vite"
  | astro => "Astro"
  | sveltekit => "SvelteKit"
  | nuxt => "Nuxt"
  | remix => "Remix"

def publicPrefixes : Framework → List String
  | nextjs => ["NEXT_PUBLIC_"]
  | vite => ["VITE_"]
  | astro => ["PUBLIC_"]
  | sveltekit => ["PUBLIC_"]
  | nuxt => ["NUXT_PUBLIC_"]
  | remix => []

def includePatterns : Framework → List String
  | nextjs => ["*.js", "*.jsx", "*.ts", "*.tsx", "next.config.*"]
  | vite => ["*.js", "*.jsx", "*.ts", "*.tsx", "*.vue", "vite.config.*"]
  | astro => ["*.js", "*.jsx", "*.ts", "*.tsx", "*.astro", "astro.config.*"]
  | sveltekit => ["*.js", "*.ts", "*.svelte", "svelte.config.*"]
  | nuxt => ["*.js", "*.ts", "*.vue", "nuxt.config.*"]
  | remix => ["*.js", "*.jsx", "*.ts", "*.tsx", "remix.config.*"]

def excludePatterns : Framework → List String
  | nextjs => [".next/"]
  | vite => ["dist/"]
  | astro => ["dist/"]
  | sveltekit => [".svelte-kit/"]
  | nuxt => [".nuxt/", "dist/"]
  | remix => ["build/"]

/-- Dependencies that give a framework away, the strongest first. -/
def dependencyMarkers : List (String × Framework) :=
  [("next", nextjs), ("vite", vite), ("astro", astro), ("@sveltejs/kit", sveltekit),
   ("nuxt", nuxt), ("@remix-run/node", remix), ("@remix-run/react", remix)]

/-- Beginnings of file names that give a framework away, the strongest first. -/
def fileMarkers : List (String × Framework) :=
  [("next.config", nextjs), ("vite.config", vite), ("astro.config", astro),
   ("svelte.config", sveltekit), ("nuxt.config", nuxt), ("remix.config", remix)]

/-- The framework of the first marker among the dependencies. -/
def ofDependencies? (dependencies : List String) : Option Framework :=
  (dependencyMarkers.find? fun m => dependencies.contains m.1).map (·.2)

/-- The framework of the first marker that begins one of the names. -/
def ofFileNames? (names : List String) : Option Framework :=
  (fileMarkers.find? fun m => names.any fun n => m.1.toList.isPrefixOf n.toList).map (·.2)

/-! Detection of the framework of a project.  The package file speaks first: one that cannot be
read as an object leaves the framework unknown.  When none of its dependencies is a marker, the
names in the project's folder decide. -/

/-- The names of the dependencies that a package file lists, when it is an object. -/
def dependenciesOf? (bytes : List UInt8) : Option (List String) := do
  let text ← Text.decode? bytes
  match ← Json.parse? (String.ofList text) with
  | .object fields =>
    return ["dependencies", "devDependencies"].flatMap fun key =>
      match (Json.object fields).field? key with
      | some (.object entries) => entries.map (·.1)
      | _ => []
  | _ => none

/-- The names in a folder. -/
def namesIn (d : Disk) (here : Disk.Place) (directory : String) : List String :=
  ((d.find? here directory).map fun e => e.entries.map (·.1)).getD []

/-- The framework of the project in a directory. -/
def detect? (d : Disk) (here : Disk.Place) (directory : String) : Option Framework :=
  match d.bytes? here (directory ++ "/package.json") with
  | some bytes =>
    match dependenciesOf? bytes with
    | some dependencies => (ofDependencies? dependencies).or (ofFileNames? (namesIn d here directory))
    | none => none
  | none => ofFileNames? (namesIn d here directory)

end Framework

end EnvCensus
