/-!
# The demo source

What is compiled when no source is named.
-/

namespace TsxCompiler

/-- A small component with hooks. -/
def demoSource : String :=
  String.join <| [
    "import React, \x7b useState, useEffect \x7d from 'react';",
    "import \x7b Container, Section, Button, Text \x7d from '@app/components';",
    "import \x7b useCustomHook \x7d from '@app/hooks';",
    "",
    "export function MyComponent (): JSX.Element \x7b",
    "  const [count, setCount] = useState(0);",
    "",
    "  useEffect(() => \x7b",
    "    console.log('effect');",
    "  \x7d, []);",
    "",
    "  useCustomHook();",
    "",
    "  return (",
    "    <Container>",
    "      <Section>",
    "        <Text>\x7b'Hello, World'\x7d</Text>",
    "      </Section>",
    "      <Section>",
    "        <Text>\x7bcount\x7d</Text>",
    "      </Section>",
    "      <Section>",
    "        <Button onPress=\x7b() => setCount((v) => v + 1)\x7d>",
    "          <Text>\x7b'Press Me'\x7d</Text>",
    "        </Button>",
    "      </Section>",
    "    </Container>",
    "  );",
    "\x7d;"].map (· ++ "\n")

end TsxCompiler
